import Marreta.Foundation.Binary64Integers
import Marreta.Runtime.Operators

namespace Marreta

open Binary64

/-! The `math` namespace.

Apart from `abs` its functions compute with doubles, also on integers.  The results on integers
are those of arithmetic exactly when doubles can hold them. -/

namespace MathNamespace

open Operators (typeError integerResult)

variable (profile : BuildProfile) (kit : NumberKit) (tenPower : Int32 → Binary64)
variable (library : Library) (position : Position)

def runtimeError {α : Type} (message : String) : Except LibraryFault α :=
  .error (.error (.runtimeError message position.line position.column))

def wrongArity {α : Type} (name : String) (expected got : Nat) : Except LibraryFault α :=
  .error (.error (.wrongArity name expected got position.line position.column))

def ensureNoNamedArgs (named : List (String × Value)) (method : String) :
    Except LibraryFault Unit :=
  match named with
  | [] => .ok ()
  | (name, _) :: _ =>
      typeError position (method ++ "() does not accept named argument '" ++ name ++ "'")

/-- A number with the kind of result it asks for. -/
structure NumericValue where
  value : Binary64
  isFloat : Bool

def mathNumericValue (value : Value) (name : String) : Except LibraryFault NumericValue :=
  match value with
  | .integer n => .ok ⟨ofInt64 n, false⟩
  | .float n => .ok ⟨n, true⟩
  | other =>
      typeError position (name ++ "() requires Integer or Float, got " ++ other.typeName)

def mathNumberArg (arguments : List Value) (name : String) : Except LibraryFault Binary64 :=
  match arguments with
  | [value] => (mathNumericValue position value name).map (·.value)
  | _ => wrongArity position name 1 arguments.length

def mathTwoNumberArgs (arguments : List Value) (name : String) :
    Except LibraryFault (NumericValue × NumericValue) :=
  match arguments with
  | [left, right] => do
      let left ← mathNumericValue position left name
      let right ← mathNumericValue position right name
      return (left, right)
  | _ => wrongArity position name 2 arguments.length

/-- The result is a float when one of the numbers is. -/
def numericResult (isFloat : Bool) (result : Binary64) : Value :=
  if isFloat then .float result else .integer result.toInt64

def mathMinMaxResult (left right : NumericValue) (op : Binary64 → Binary64 → Binary64) : Value :=
  numericResult (left.isFloat || right.isFloat) (op left.value right.value)

/-- The last `places:` argument. -/
def roundPlaces : List (String × Value) → Option Int64 → Except LibraryFault (Option Int64)
  | [], places => .ok places
  | (name, evaluated) :: named, _ =>
      if name = "places" then
        match library.asInteger evaluated with
        | none =>
            typeError position ("math.round() places: must be Integer, got " ++ evaluated.typeName)
        | some parsed =>
            if parsed < 0 then
              runtimeError position "math.round() places: must be zero or greater"
            else roundPlaces named (some parsed)
      else
        typeError position ("math.round() does not accept named argument '" ++ name ++ "'")

def dispatchMathRound (positional : List Value) (named : List (String × Value)) :
    Except LibraryFault Value := do
  match ← roundPlaces library position named none with
  | some places =>
      let number ← mathNumberArg position positional "math.round"
      let scale := tenPower places.toInt32
      return .float (kit.floatDivide (kit.floatMultiply number scale).round scale)
  | none => return .integer (← mathNumberArg position positional "math.round").roundToInt64

/-- The last `min:` and `max:` arguments. -/
def clampBounds : List (String × Value) → Option Value × Option Value →
    Except LibraryFault (Option Value × Option Value)
  | [], bounds => .ok bounds
  | (name, value) :: named, (min, max) =>
      if name = "min" then clampBounds named (some value, max)
      else if name = "max" then clampBounds named (min, some value)
      else
        typeError position ("math.clamp() does not accept named argument '" ++ name ++ "'")

def clampBound (bound : Option Value) : Except LibraryFault Value :=
  match bound with
  | some bound => .ok bound
  | none => typeError position "math.clamp() requires min: and max:"

def dispatchMathClamp (positional : List Value) (named : List (String × Value)) :
    Except LibraryFault Value := do
  let (min, max) ← clampBounds position named (none, none)
  match positional with
  | [number] =>
      let min ← clampBound position min
      let max ← clampBound position max
      let value ← mathNumericValue position number "math.clamp"
      let minValue ← mathNumericValue position min "math.clamp"
      let maxValue ← mathNumericValue position max "math.clamp"
      if minValue.value.greater maxValue.value then
        runtimeError position "math.clamp() requires min <= max"
      else
        let clamped := (value.value.maximum minValue.value).minimum maxValue.value
        return numericResult (value.isFloat || minValue.isFloat || maxValue.isFloat) clamped
  | _ => wrongArity position "math.clamp" 1 positional.length

def dispatchMathAbs (positional : List Value) : Except LibraryFault Value :=
  match positional with
  | [] => typeError position "math.abs() requires one numeric argument"
  | .integer n :: _ => integerResult profile n.toInt.natAbs
  | .float n :: _ => .ok (.float n.abs)
  | other :: _ =>
      typeError position ("math.abs() requires Integer or Float, got " ++ other.typeName)

def dispatchMath (method : String) (positional : List Value) (named : List (String × Value)) :
    Except LibraryFault Value :=
  match method with
  | "abs" => do
      ensureNoNamedArgs position named "math.abs"
      dispatchMathAbs profile position positional
  | "floor" => do
      ensureNoNamedArgs position named "math.floor"
      return .integer (← mathNumberArg position positional "math.floor").floorToInt64
  | "ceil" => do
      ensureNoNamedArgs position named "math.ceil"
      return .integer (← mathNumberArg position positional "math.ceil").ceilToInt64
  | "round" => dispatchMathRound kit tenPower library position positional named
  | "min" => do
      ensureNoNamedArgs position named "math.min"
      let (left, right) ← mathTwoNumberArgs position positional "math.min"
      return mathMinMaxResult left right minimum
  | "max" => do
      ensureNoNamedArgs position named "math.max"
      let (left, right) ← mathTwoNumberArgs position positional "math.max"
      return mathMinMaxResult left right maximum
  | "clamp" => dispatchMathClamp position positional named
  | _ =>
      .error (.error (.propertyNotFound "MathNamespace" method position.line position.column))

/-! ## Calls with integers -/

/-- A function and its arguments, all of them integers. -/
inductive IntegerCall where
  | abs (n : Int64)
  | floor (n : Int64)
  | ceil (n : Int64)
  | round (n : Int64)
  | min (a b : Int64)
  | max (a b : Int64)
  /-- With `min:` in front of `max:`, or behind it. -/
  | clamp (x lower upper : Int64) (swapped : Bool)

namespace IntegerCall

def method : IntegerCall → String
  | .abs _ => "abs"
  | .floor _ => "floor"
  | .ceil _ => "ceil"
  | .round _ => "round"
  | .min _ _ => "min"
  | .max _ _ => "max"
  | .clamp _ _ _ _ => "clamp"

def positional : IntegerCall → List Value
  | .abs n | .floor n | .ceil n | .round n => [.integer n]
  | .min a b | .max a b => [.integer a, .integer b]
  | .clamp x _ _ _ => [.integer x]

def named : IntegerCall → List (String × Value)
  | .clamp _ lower upper false => [("min", .integer lower), ("max", .integer upper)]
  | .clamp _ lower upper true => [("max", .integer upper), ("min", .integer lower)]
  | _ => []

/-- The number between two bounds that is nearest to another. -/
def IsNearest (lower upper number other : Int) : Prop :=
  (lower ≤ other ∧ other ≤ upper) ∧
    ∀ third, lower ≤ third ∧ third ≤ upper → (other - number).natAbs ≤ (third - number).natAbs

def Returns (wanted : Int → Prop) (result : Except LibraryFault Value) : Prop :=
  ∃ value : Int64, result = .ok (.integer value) ∧ wanted value.toInt

/-- The result is that of arithmetic. -/
def Faithful : IntegerCall → Except LibraryFault Value → Prop
  | .abs n => MeetsInteger n.toInt.natAbs
  | .floor n | .ceil n | .round n => Returns (· = n.toInt)
  | .min a b => Returns (· = Min.min a.toInt b.toInt)
  | .max a b => Returns (· = Max.max a.toInt b.toInt)
  | .clamp x lower upper _ => fun result =>
      if lower.toInt ≤ upper.toInt then
        Returns (IsNearest lower.toInt upper.toInt x.toInt) result
      else IsError result

/-- The calls whose arguments survive as doubles. -/
def Survives : IntegerCall → Prop
  | .abs n => n ≠ Int64.minValue
  | .floor n | .ceil n | .round n => Kept n.toInt
  | .min a b => Kept (Min.min a.toInt b.toInt)
  | .max a b => Kept (Max.max a.toInt b.toInt)
  | .clamp x lower upper _ =>
      if lower.toInt ≤ upper.toInt then
        Kept (Min.min (Max.max x.toInt lower.toInt) upper.toInt)
      else nearestInteger lower.toInt ≠ nearestInteger upper.toInt

end IntegerCall

section Exactness

open IntegerCall

theorem returns_integer (wanted : Int → Prop) (value : Int64) :
    Returns wanted (.ok (.integer value)) ↔ wanted value.toInt := by
  constructor
  · rintro ⟨other, same, meets⟩
    cases same
    exact meets
  · exact fun meets => ⟨value, rfl, meets⟩

theorem isNearest_iff {lower upper number other : Int} (ordered : lower ≤ upper) :
    IsNearest lower upper number other ↔ other = min (max number lower) upper := by
  constructor
  · rintro ⟨inside, nearest⟩
    have closest := nearest (min (max number lower) upper) (by omega)
    omega
  · rintro rfl
    refine ⟨by omega, fun third inside => ?_⟩
    omega

theorem inRange (n : Int64) : -2 ^ 63 ≤ n.toInt ∧ n.toInt < 2 ^ 63 :=
  ⟨n.le_toInt, n.toInt_lt⟩

theorem holds_minimum {left right : Binary64} {a b : Int}
    (leftHolds : Holds left (nearestInteger a)) (rightHolds : Holds right (nearestInteger b)) :
    Holds (minimum left right) (nearestInteger (min a b)) := by
  have rounded : Monotone nearestInteger := fun first second => nearestInteger_mono
  rw [rounded.map_min]
  exact leftHolds.minimum rightHolds

theorem holds_maximum {left right : Binary64} {a b : Int}
    (leftHolds : Holds left (nearestInteger a)) (rightHolds : Holds right (nearestInteger b)) :
    Holds (maximum left right) (nearestInteger (max a b)) := by
  have rounded : Monotone nearestInteger := fun first second => nearestInteger_mono
  rw [rounded.map_max]
  exact leftHolds.maximum rightHolds

theorem abs_faithful_iff (profile : BuildProfile) (n : Int64) :
    MeetsInteger n.toInt.natAbs (integerResult profile n.toInt.natAbs) ↔
      n ≠ Int64.minValue := by
  have bounds := inRange n
  have least : Int64.minValue.toInt = -2 ^ 63 := rfl
  unfold integerResult
  split
  · rename_i fits
    refine iff_of_true (.inl ⟨_, rfl, ?_⟩) ?_
    · rw [Int64.toInt_ofInt]
      apply Int.bmod_eq_of_le <;> simp only [Int64.size] <;> omega
    · rintro rfl
      omega
  · rename_i beyond
    have same : n = Int64.minValue := by
      apply Int64.toInt_inj.mp
      omega
    subst same
    refine iff_of_false ?_ fun other => other rfl
    cases profile with
    | debug => rintro (⟨value, done, -⟩ | ⟨error, failed⟩) <;> cases ‹_ = _›
    | release =>
        rintro (⟨value, done, meets⟩ | ⟨error, failed⟩)
        · cases done
          exact absurd meets (by decide)
        · cases failed

section Dispatch

variable (profile : BuildProfile) (kit : NumberKit) (tenPower : Int32 → Binary64)
variable (library : Library) (position : Position)

def IntegerCall.result (call : IntegerCall) : Except LibraryFault Value :=
  dispatchMath profile kit tenPower library position call.method call.positional call.named

theorem abs_result (n : Int64) :
    (IntegerCall.abs n).result profile kit tenPower library position =
      integerResult profile n.toInt.natAbs := by
  simp only [IntegerCall.result, IntegerCall.method, IntegerCall.named, IntegerCall.positional,
    dispatchMath, ensureNoNamedArgs, dispatchMathAbs]
  exact pure_bind (m := Except LibraryFault) () _

theorem floor_result (n : Int64) :
    (IntegerCall.floor n).result profile kit tenPower library position =
      .ok (.integer (ofInt64 n).floorToInt64) :=
  rfl

theorem ceil_result (n : Int64) :
    (IntegerCall.ceil n).result profile kit tenPower library position =
      .ok (.integer (ofInt64 n).ceilToInt64) :=
  rfl

theorem round_result (n : Int64) :
    (IntegerCall.round n).result profile kit tenPower library position =
      .ok (.integer (ofInt64 n).roundToInt64) :=
  rfl

theorem min_result (a b : Int64) :
    (IntegerCall.min a b).result profile kit tenPower library position =
      .ok (.integer (minimum (ofInt64 a) (ofInt64 b)).toInt64) :=
  rfl

theorem max_result (a b : Int64) :
    (IntegerCall.max a b).result profile kit tenPower library position =
      .ok (.integer (maximum (ofInt64 a) (ofInt64 b)).toInt64) :=
  rfl

theorem clamp_result (x lower upper : Int64) (swapped : Bool) :
    (IntegerCall.clamp x lower upper swapped).result profile kit tenPower library position =
      if (ofInt64 lower).greater (ofInt64 upper) then
        runtimeError position "math.clamp() requires min <= max"
      else
        .ok (.integer (((ofInt64 x).maximum (ofInt64 lower)).minimum (ofInt64 upper)).toInt64) := by
  cases swapped <;> rfl

theorem clamp_faithful_iff (x lower upper : Int64) (swapped : Bool) :
    (IntegerCall.clamp x lower upper swapped).Faithful
        ((IntegerCall.clamp x lower upper swapped).result profile kit tenPower library position) ↔
      (IntegerCall.clamp x lower upper swapped).Survives := by
  have lowerHolds := holds_nearestInteger lower
  have upperHolds := holds_nearestInteger upper
  have holds := holds_minimum (holds_maximum (holds_nearestInteger x) lowerHolds) upperHolds
  have greater := lowerHolds.greater_iff upperHolds
  have lowerRange := inRange lower
  have upperRange := inRange upper
  have range := inRange x
  rw [clamp_result]
  simp only [Faithful, Survives]
  by_cases ordered : lower.toInt ≤ upper.toInt
  · have rounded := nearestInteger_mono ordered
    rw [if_pos ordered, if_pos ordered, if_neg (by rw [greater]; omega), returns_integer,
      isNearest_iff ordered]
    exact read_eq_iff_kept holds (by omega) (by omega)
  · have rounded := nearestInteger_mono (Int.le_of_not_le ordered)
    rw [if_neg ordered, if_neg ordered]
    by_cases same : nearestInteger lower.toInt = nearestInteger upper.toInt
    · rw [if_neg (by rw [greater]; omega)]
      exact iff_of_false (fun failed => nomatch failed) fun other => other same
    · rw [if_pos (by rw [greater]; omega)]
      exact iff_of_true ⟨_, rfl⟩ same

/-- The functions agree with arithmetic on integers exactly when their results survive as
doubles, and only `abs` stops the thread, in a debug build. -/
theorem integerCall_faithful_iff (call : IntegerCall) :
    call.Faithful (call.result profile kit tenPower library position) ↔ call.Survives := by
  cases call with
  | abs n =>
      rw [abs_result]
      exact abs_faithful_iff profile n
  | floor n =>
      have holds := holds_nearestInteger n
      rw [floor_result, Faithful, Survives, returns_integer, holds.floorToInt64]
      exact read_eq_iff_kept holds (inRange n).1 (inRange n).2
  | ceil n =>
      have holds := holds_nearestInteger n
      rw [ceil_result, Faithful, Survives, returns_integer, holds.ceilToInt64]
      exact read_eq_iff_kept holds (inRange n).1 (inRange n).2
  | round n =>
      have holds := holds_nearestInteger n
      rw [round_result, Faithful, Survives, returns_integer, holds.roundToInt64]
      exact read_eq_iff_kept holds (inRange n).1 (inRange n).2
  | min a b =>
      have holds := holds_minimum (holds_nearestInteger a) (holds_nearestInteger b)
      have left := inRange a
      have right := inRange b
      rw [min_result, Faithful, Survives, returns_integer]
      exact read_eq_iff_kept holds (by omega) (by omega)
  | max a b =>
      have holds := holds_maximum (holds_nearestInteger a) (holds_nearestInteger b)
      have left := inRange a
      have right := inRange b
      rw [max_result, Faithful, Survives, returns_integer]
      exact read_eq_iff_kept holds (by omega) (by omega)
  | clamp x lower upper swapped =>
      exact clamp_faithful_iff profile kit tenPower library position x lower upper swapped

end Dispatch

end Exactness

/-! ## Panics -/

section Panics

/-- A result or an error. -/
def Calm {α : Type} (result : Except LibraryFault α) : Prop :=
  result ≠ .error .panic

theorem calm_ok {α : Type} (value : α) : Calm (.ok value) := nofun

theorem calm_error {α : Type} (error : MarretaError) :
    Calm (.error (.error error) : Except LibraryFault α) := nofun

theorem Calm.bind {α β : Type} {first : Except LibraryFault α}
    {next : α → Except LibraryFault β} (calm : Calm first) (rest : ∀ value, Calm (next value)) :
    Calm (first >>= next) := by
  cases first with
  | error fault =>
      cases fault with
      | error error => exact calm_error error
      | panic => exact absurd rfl calm
  | ok value => exact rest value

variable {profile : BuildProfile} {kit : NumberKit} {tenPower : Int32 → Binary64}
variable {library : Library} {position : Position}

theorem calm_ensureNoNamedArgs (named : List (String × Value)) (method : String) :
    Calm (ensureNoNamedArgs position named method) := by
  unfold ensureNoNamedArgs
  split
  · exact calm_ok ()
  · exact calm_error _

theorem calm_mathNumericValue (value : Value) (name : String) :
    Calm (mathNumericValue position value name) := by
  unfold mathNumericValue
  split
  · exact calm_ok _
  · exact calm_ok _
  · exact calm_error _

theorem calm_mathNumberArg (arguments : List Value) (name : String) :
    Calm (mathNumberArg position arguments name) := by
  unfold mathNumberArg
  split
  · exact (calm_mathNumericValue _ name).bind fun number => calm_ok number.value
  · exact calm_error _

theorem calm_mathTwoNumberArgs (arguments : List Value) (name : String) :
    Calm (mathTwoNumberArgs position arguments name) := by
  unfold mathTwoNumberArgs
  split
  · exact (calm_mathNumericValue _ name).bind fun left =>
      (calm_mathNumericValue _ name).bind fun right => calm_ok (left, right)
  · exact calm_error _

theorem calm_roundPlaces (named : List (String × Value)) (places : Option Int64) :
    Calm (roundPlaces library position named places) := by
  induction named generalizing places with
  | nil => exact calm_ok places
  | cons argument named induction =>
      rw [roundPlaces]
      split
      · split
        · exact calm_error _
        · split
          · exact calm_error _
          · exact induction _
      · exact calm_error _

theorem calm_clampBounds (named : List (String × Value)) (bounds : Option Value × Option Value) :
    Calm (clampBounds position named bounds) := by
  induction named generalizing bounds with
  | nil => exact calm_ok bounds
  | cons argument named induction =>
      rw [clampBounds]
      split
      · exact induction _
      · split
        · exact induction _
        · exact calm_error _

theorem calm_clampBound (bound : Option Value) : Calm (clampBound position bound) := by
  cases bound with
  | none => exact calm_error _
  | some bound => exact calm_ok bound

theorem calm_dispatchMathRound (positional : List Value) (named : List (String × Value)) :
    Calm (dispatchMathRound kit tenPower library position positional named) := by
  apply (calm_roundPlaces named none).bind
  intro places
  cases places with
  | none => exact (calm_mathNumberArg positional _).bind fun number => calm_ok _
  | some places => exact (calm_mathNumberArg positional _).bind fun number => calm_ok _

theorem calm_dispatchMathClamp (positional : List Value) (named : List (String × Value)) :
    Calm (dispatchMathClamp position positional named) := by
  apply (calm_clampBounds named (none, none)).bind
  intro bounds
  dsimp only
  split
  · apply (calm_clampBound bounds.1).bind
    intro lower
    apply (calm_clampBound bounds.2).bind
    intro upper
    apply (calm_mathNumericValue _ _).bind
    intro value
    apply (calm_mathNumericValue _ _).bind
    intro lowerValue
    apply (calm_mathNumericValue _ _).bind
    intro upperValue
    split
    · exact calm_error _
    · exact calm_ok _
  · exact calm_error _

/-- What stops the thread: the absolute value of the least integer. -/
def Panics (profile : BuildProfile) (method : String) (positional : List Value)
    (named : List (String × Value)) : Prop :=
  profile = .debug ∧ method = "abs" ∧ named = [] ∧
    positional.head? = some (.integer Int64.minValue)

theorem integerResult_panics_iff (exact : Int) :
    integerResult profile exact = .error .panic ↔
      profile = .debug ∧ ¬ (-2 ^ 63 ≤ exact ∧ exact < 2 ^ 63) := by
  unfold integerResult
  split
  · rename_i fits
    exact iff_of_false (calm_ok _) fun panics => panics.2 fits
  · rename_i beyond
    cases profile with
    | debug => exact iff_of_true rfl ⟨rfl, beyond⟩
    | release => exact iff_of_false (calm_ok _) nofun

theorem dispatchMathAbs_panics_iff (positional : List Value) :
    dispatchMathAbs profile position positional = .error .panic ↔
      profile = .debug ∧ positional.head? = some (.integer Int64.minValue) := by
  unfold dispatchMathAbs
  split
  · exact iff_of_false (calm_error _) nofun
  · rename_i n rest
    rw [integerResult_panics_iff, List.head?_cons, Option.some.injEq, Value.integer.injEq,
      ← Int64.toInt_inj]
    have bounds := inRange n
    have least : Int64.minValue.toInt = -2 ^ 63 := rfl
    rw [least]
    apply and_congr_right
    intro debug
    omega
  · exact iff_of_false (calm_ok _) nofun
  · rename_i other rest notInteger notFloat
    refine iff_of_false (calm_error _) fun panics => ?_
    exact notInteger _ (Option.some.inj panics.2)

theorem dispatchMath_panics_iff {method : String} {positional : List Value}
    {named : List (String × Value)} :
    dispatchMath profile kit tenPower library position method positional named = .error .panic ↔
      Panics profile method positional named := by
  have calm {method : String} {result : Except LibraryFault Value} (other : method ≠ "abs")
      (returns : Calm result) :
      result = .error .panic ↔ Panics profile method positional named :=
    iff_of_false returns fun panics => other panics.2.1
  unfold dispatchMath
  split
  · cases named with
    | nil =>
        refine (dispatchMathAbs_panics_iff positional).trans ?_
        simp [Panics]
    | cons argument named => exact iff_of_false (calm_error _) fun panics => nomatch panics.2.2.1
  · exact calm (by decide) ((calm_ensureNoNamedArgs named _).bind fun _ =>
      (calm_mathNumberArg positional _).bind fun number => calm_ok _)
  · exact calm (by decide) ((calm_ensureNoNamedArgs named _).bind fun _ =>
      (calm_mathNumberArg positional _).bind fun number => calm_ok _)
  · exact calm (by decide) (calm_dispatchMathRound positional named)
  · exact calm (by decide) ((calm_ensureNoNamedArgs named _).bind fun _ =>
      (calm_mathTwoNumberArgs positional _).bind fun numbers => calm_ok _)
  · exact calm (by decide) ((calm_ensureNoNamedArgs named _).bind fun _ =>
      (calm_mathTwoNumberArgs positional _).bind fun numbers => calm_ok _)
  · exact calm (by decide) (calm_dispatchMathClamp positional named)
  · rename_i other _ _ _ _ _ _
    exact calm other (calm_error _)

end Panics

end MathNamespace

/-- The library with this namespace. -/
def Library.withMath (library : Library) (profile : BuildProfile) (kit : NumberKit)
    (tenPower : Int32 → Binary64) : Library :=
  { library with math := MathNamespace.dispatchMath profile kit tenPower library }

namespace MathNamespace

open IntegerCall

/-- Calls with integers are those of arithmetic exactly when their results survive as doubles,
and whatever the arguments are, only the absolute value of the least integer stops the thread. -/
theorem math_faithful_iff (library : Library) (profile : BuildProfile) (kit : NumberKit)
    (tenPower : Int32 → Binary64) (position : Position) (call : IntegerCall) (method : String)
    (positional : List Value) (named : List (String × Value)) :
    (call.Faithful ((library.withMath profile kit tenPower).math position call.method
        call.positional call.named) ↔ call.Survives) ∧
      ((library.withMath profile kit tenPower).math position method positional named =
        .error .panic ↔ Panics profile method positional named) :=
  ⟨integerCall_faithful_iff profile kit tenPower library position call,
    dispatchMath_panics_iff⟩

/-- A library whose powers of ten are of no interest. -/
def roundingLibrary (profile : BuildProfile) : Library :=
  scalarLibrary.withMath profile Operators.overflowingKit fun _ => ofInt64 1

/-- The larger of two numbers is not returned, crossed bounds are accepted, and the absolute
value of the least integer stops the thread or is negative. -/
theorem math_unfaithful :
    (¬ Faithful (.max 9007199254740993 0) ((roundingLibrary .release).math ⟨1, 1⟩ "max"
      [.integer 9007199254740993, .integer 0] [])) ∧
    (¬ Faithful (.clamp 0 9007199254740993 9007199254740992 false)
      ((roundingLibrary .release).math ⟨1, 1⟩ "clamp" [.integer 0]
        [("min", .integer 9007199254740993), ("max", .integer 9007199254740992)])) ∧
    (¬ Faithful (.abs Int64.minValue) ((roundingLibrary .release).math ⟨1, 1⟩ "abs"
      [.integer Int64.minValue] [])) ∧
    (roundingLibrary .debug).math ⟨1, 1⟩ "abs" [.integer Int64.minValue] [] =
      .error .panic := by
  have exactly (profile : BuildProfile) (call : IntegerCall) :=
    integerCall_faithful_iff profile Operators.overflowingKit (fun _ => ofInt64 1) scalarLibrary
      ⟨1, 1⟩ call
  refine ⟨fun faithful => ?_, fun faithful => ?_, fun faithful => ?_, ?_⟩
  · rcases (exactly .release (.max 9007199254740993 0)).mp faithful with held | greatest
    · rw [isHeld_iff_nearestInteger] at held
      exact absurd held (by decide +kernel)
    · exact absurd greatest (by decide +kernel)
  · have crossed :=
      (exactly .release (.clamp 0 9007199254740993 9007199254740992 false)).mp faithful
    rw [Survives, if_neg (by decide +kernel)] at crossed
    exact crossed (by decide +kernel)
  · exact (exactly .release (.abs Int64.minValue)).mp faithful rfl
  · have panics := @dispatchMath_panics_iff .debug Operators.overflowingKit (fun _ => ofInt64 1)
      scalarLibrary ⟨1, 1⟩ "abs" [.integer Int64.minValue] []
    exact panics.mpr ⟨rfl, rfl, rfl, rfl⟩

end MathNamespace

end Marreta
