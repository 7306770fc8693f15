import Marreta.Runtime.Host
import Mathlib

namespace Marreta

open Foundation

/-! The operators of the language.

Integers are 64 bits wide and the operators on them are those of the host language: an
overflow stops the thread in a debug build and wraps in a release build, and the quotient and
the remainder of the least integer by minus one stop the thread in both. -/

/-- How the interpreter was built. -/
inductive BuildProfile where
  | debug | release
deriving DecidableEq

/-- Decimal and binary floating-point arithmetic.  A decimal operation without result has
overflowed. -/
structure NumberKit where
  decimalAdd : Decimal → Decimal → Option Decimal
  decimalSubtract : Decimal → Decimal → Option Decimal
  decimalMultiply : Decimal → Decimal → Option Decimal
  decimalDivide : Decimal → Decimal → Option Decimal
  decimalCompare : Decimal → Decimal → Ordering
  floatOfInteger : Int64 → Binary64
  floatAdd : Binary64 → Binary64 → Binary64
  floatSubtract : Binary64 → Binary64 → Binary64
  floatMultiply : Binary64 → Binary64 → Binary64
  floatDivide : Binary64 → Binary64 → Binary64
  floatRemainder : Binary64 → Binary64 → Binary64
  floatCompare : Binary64 → Binary64 → Option Ordering

def Decimal.ofInteger (value : Int64) : Decimal where
  negative := value < 0
  mantissa := ⟨value.toInt.natAbs, by
    have lower := value.le_toInt
    have upper := value.toInt_lt
    omega⟩
  scale := ⟨0, by decide⟩

def Decimal.isZero (value : Decimal) : Bool :=
  value.mantissa.val = 0

namespace Operators

variable (profile : BuildProfile) (kit : NumberKit) (library : Library) (position : Position)

def typeError {α : Type} (message : String) : Except LibraryFault α :=
  .error (.error (.typeError message position.line position.column))

def divisionByZero : Except LibraryFault Value :=
  .error (.error (.divisionByZero position.line position.column))

/-- An integer result as the build stores it. -/
def integerResult (exact : Int) : Except LibraryFault Value :=
  if -2 ^ 63 ≤ exact ∧ exact < 2 ^ 63 then .ok (.integer (.ofInt exact))
  else
    match profile with
    | .debug => .error .panic
    | .release => .ok (.integer (.ofInt exact))

/-- The operators on decimals panic where the checked operations have no result. -/
def decimalResult : Option Decimal → Except LibraryFault Value
  | some result => .ok (.decimal result)
  | none => .error .panic

def mixedNumbers : Except LibraryFault Value :=
  typeError position "cannot mix Decimal and Float"

def opAdd (left right : Value) : Except LibraryFault Value :=
  match left, right with
  | .integer a, .integer b => integerResult profile (a.toInt + b.toInt)
  | .decimal a, .decimal b => decimalResult (kit.decimalAdd a b)
  | .decimal a, .integer b => decimalResult (kit.decimalAdd a (.ofInteger b))
  | .integer a, .decimal b => decimalResult (kit.decimalAdd (.ofInteger a) b)
  | .decimal _, .float _ | .float _, .decimal _ => mixedNumbers position
  | .integer a, .float b => .ok (.float (kit.floatAdd (kit.floatOfInteger a) b))
  | .float a, .integer b => .ok (.float (kit.floatAdd a (kit.floatOfInteger b)))
  | .float a, .float b => .ok (.float (kit.floatAdd a b))
  | .string a, b => .ok (.string (a ++ library.display b))
  | a, .string b => .ok (.string (library.display a ++ b))
  | .list a, .list b => .ok (.list (a ++ b))
  | left, right =>
      typeError position ("cannot add " ++ left.typeName ++ " and " ++ right.typeName)

def opArith (integerOp : Int → Int → Int) (decimalOp : Decimal → Decimal → Option Decimal)
    (floatOp : Binary64 → Binary64 → Binary64) (opName : String) (left right : Value) :
    Except LibraryFault Value :=
  match left, right with
  | .integer a, .integer b => integerResult profile (integerOp a.toInt b.toInt)
  | .decimal a, .decimal b => decimalResult (decimalOp a b)
  | .decimal a, .integer b => decimalResult (decimalOp a (.ofInteger b))
  | .integer a, .decimal b => decimalResult (decimalOp (.ofInteger a) b)
  | .decimal _, .float _ | .float _, .decimal _ => mixedNumbers position
  | .integer a, .float b => .ok (.float (floatOp (kit.floatOfInteger a) b))
  | .float a, .integer b => .ok (.float (floatOp a (kit.floatOfInteger b)))
  | .float a, .float b => .ok (.float (floatOp a b))
  | left, right =>
      typeError position ("cannot apply '" ++ opName ++ "' to " ++ left.typeName ++ " and " ++
        right.typeName)

/-- Both builds stop at the quotient and the remainder of the least integer by minus one. -/
def quotient (exact : Int → Int → Int) (a b : Int64) : Except LibraryFault Value :=
  if a = Int64.minValue ∧ b = -1 then .error .panic
  else .ok (.integer (.ofInt (exact a.toInt b.toInt)))

def isFloatZero (value : Binary64) : Bool :=
  value.bits = 0 || value.bits = 0x8000000000000000

def opDivide (left right : Value) : Except LibraryFault Value :=
  match left, right with
  | .integer a, .integer b =>
      if b = 0 then divisionByZero position else quotient Int.tdiv a b
  | .float a, .integer b =>
      if b = 0 then divisionByZero position
      else .ok (.float (kit.floatDivide a (kit.floatOfInteger b)))
  | .decimal a, .integer b =>
      if b = 0 then divisionByZero position
      else decimalResult (kit.decimalDivide a (.ofInteger b))
  | .integer a, .decimal b =>
      if b.isZero then divisionByZero position
      else decimalResult (kit.decimalDivide (.ofInteger a) b)
  | .decimal a, .decimal b =>
      if b.isZero then divisionByZero position else decimalResult (kit.decimalDivide a b)
  | .integer a, .float b =>
      if isFloatZero b then divisionByZero position
      else .ok (.float (kit.floatDivide (kit.floatOfInteger a) b))
  | .float a, .float b =>
      if isFloatZero b then divisionByZero position else .ok (.float (kit.floatDivide a b))
  | .decimal _, .float _ | .float _, .decimal _ => mixedNumbers position
  | left, right =>
      typeError position ("cannot divide " ++ left.typeName ++ " by " ++ right.typeName)

def opModulo (left right : Value) : Except LibraryFault Value :=
  match left, right with
  | .integer a, .integer b =>
      if b = 0 then divisionByZero position else quotient Int.tmod a b
  | .integer a, .float b => .ok (.float (kit.floatRemainder (kit.floatOfInteger a) b))
  | .float a, .integer b => .ok (.float (kit.floatRemainder a (kit.floatOfInteger b)))
  | .float a, .float b => .ok (.float (kit.floatRemainder a b))
  | left, right =>
      typeError position ("cannot apply '%' to " ++ left.typeName ++ " and " ++ right.typeName)

def opCompare (accepts : Ordering → Bool) (left right : Value) : Except LibraryFault Value :=
  let compared (order : Ordering) : Except LibraryFault Value := .ok (.boolean (accepts order))
  match left, right with
  | .integer a, .integer b => compared (compare a.toInt b.toInt)
  | .decimal a, .decimal b => compared (kit.decimalCompare a b)
  | .decimal a, .integer b => compared (kit.decimalCompare a (.ofInteger b))
  | .integer a, .decimal b => compared (kit.decimalCompare (.ofInteger a) b)
  | .decimal _, .float _ | .float _, .decimal _ =>
      typeError position "cannot compare Decimal and Float"
  | .integer a, .float b => compared ((kit.floatCompare (kit.floatOfInteger a) b).getD .eq)
  | .float a, .integer b => compared ((kit.floatCompare a (kit.floatOfInteger b)).getD .eq)
  | .float a, .float b => compared ((kit.floatCompare a b).getD .eq)
  | .string a, .string b => compared (compare a b)
  | left, right =>
      typeError position ("cannot compare " ++ left.typeName ++ " and " ++ right.typeName)

def opIn (left right : Value) : Except LibraryFault Value :=
  match right with
  | .list items => .ok (.boolean (items.any fun item => library.valueEq item left))
  | .string haystack =>
      match left with
      | .string needle =>
          .ok (.boolean (haystack.toList.tails.any needle.toList.isPrefixOf))
      | left =>
          typeError position
            ("left operand of 'in' must be String when right operand is String, got " ++
              left.typeName)
  | right =>
      typeError position ("right operand of 'in' must be List or String, got " ++ right.typeName)

def applyBinaryOp (op : BinaryOperator) (left right : Value) : Except LibraryFault Value :=
  match op with
  | .add => opAdd profile kit library position left right
  | .subtract =>
      opArith profile kit position (· - ·) kit.decimalSubtract kit.floatSubtract "-" left right
  | .multiply =>
      opArith profile kit position (· * ·) kit.decimalMultiply kit.floatMultiply "*" left right
  | .divide => opDivide kit position left right
  | .modulo => opModulo kit position left right
  | .equal => .ok (.boolean (library.valueEq left right))
  | .notEqual => .ok (.boolean (!library.valueEq left right))
  | .greater => opCompare kit position Ordering.isGT left right
  | .less => opCompare kit position Ordering.isLT left right
  | .greaterEqual => opCompare kit position Ordering.isGE left right
  | .lessEqual => opCompare kit position Ordering.isLE left right
  | .isIn => opIn library position left right
  -- The evaluator decides these two before it gets here.
  | .and | .or => .error .panic

def applyUnaryOp (op : UnaryOperator) (value : Value) : Except LibraryFault Value :=
  match op with
  | .negate =>
      match value with
      | .integer n => integerResult profile (-n.toInt)
      | .float n => .ok (.float ⟨n.bits ^^^ 0x8000000000000000⟩)
      | .decimal n => .ok (.decimal { n with negative := !n.negative })
      | value => typeError position ("cannot negate " ++ value.typeName)
  | .not => .ok (.boolean !value.isTruthy)

end Operators

/-- A library with these operators. -/
def Library.withOperators (library : Library) (profile : BuildProfile) (kit : NumberKit) :
    Library :=
  { library with
    applyBinaryOp := fun position op left right =>
      Operators.applyBinaryOp profile kit library position op left right
    applyUnaryOp := fun position op value => Operators.applyUnaryOp profile position op value }

/-! ## Exact results -/

def arithmeticOperators : List BinaryOperator :=
  [.add, .subtract, .multiply, .divide, .modulo]

/-- The result of an operator on integers of any size. -/
def exactInteger : BinaryOperator → Int → Int → Int
  | .add, a, b => a + b
  | .subtract, a, b => a - b
  | .multiply, a, b => a * b
  | .divide, a, b => a.tdiv b
  | .modulo, a, b => a.tmod b
  | _, _, _ => 0

/-- The result of an operator on rational numbers. -/
def exactRational : BinaryOperator → Rat → Rat → Rat
  | .add, a, b => a + b
  | .subtract, a, b => a - b
  | .multiply, a, b => a * b
  | .divide, a, b => a / b
  | _, _, _ => 0

def Decimal.toRat (value : Decimal) : Rat :=
  (if value.negative then -1 else 1) * value.mantissa.val / 10 ^ value.scale.val

def IsError (result : Except LibraryFault Value) : Prop :=
  ∃ error, result = .error (.error error)

def MeetsInteger (exact : Int) (result : Except LibraryFault Value) : Prop :=
  (∃ value : Int64, result = .ok (.integer value) ∧ value.toInt = exact) ∨ IsError result

def MeetsRational (exact : Rat) (result : Except LibraryFault Value) : Prop :=
  (∃ value : Decimal, result = .ok (.decimal value) ∧ value.toRat = exact) ∨ IsError result

/-- An operand of decimal arithmetic. -/
inductive Number where
  | integer (value : Int64)
  | decimal (value : Decimal)

namespace Number

def toValue : Number → Value
  | .integer value => .integer value
  | .decimal value => .decimal value

def toDecimal : Number → Decimal
  | .integer value => .ofInteger value
  | .decimal value => value

/-- The number itself. -/
def toRat : Number → Rat
  | .integer value => value.toInt
  | .decimal value => value.toRat

def isInteger : Number → Bool
  | .integer _ => true
  | .decimal _ => false

end Number

/-- The checked operation on decimals. -/
def NumberKit.decimalOp (kit : NumberKit) : BinaryOperator → Decimal → Decimal → Option Decimal
  | .add => kit.decimalAdd
  | .subtract => kit.decimalSubtract
  | .multiply => kit.decimalMultiply
  | .divide => kit.decimalDivide
  | _ => fun _ _ => none

/-- The sum, the difference or the product fits into 64 bits, and no quotient or remainder of
the least integer by minus one is taken. -/
def IntegerSafe (op : BinaryOperator) (a b : Int64) : Prop :=
  match op with
  | .divide | .modulo => ¬ (a = Int64.minValue ∧ b = -1)
  | op => -2 ^ 63 ≤ exactInteger op a.toInt b.toInt ∧ exactInteger op a.toInt b.toInt < 2 ^ 63

/-- Decimals have no remainder and no quotient by zero; elsewhere the exact result is a
decimal. -/
def DecimalSafe (kit : NumberKit) (op : BinaryOperator) (a b : Decimal) : Prop :=
  op = .modulo ∨ op = .divide ∧ b.isZero = true ∨
    ∃ value, kit.decimalOp op a b = some value ∧ value.toRat = exactRational op a.toRat b.toRat

namespace Operators

variable (profile : BuildProfile) (kit : NumberKit) (library : Library) (position : Position)

theorem toInt_ofInt_of_fits {exact : Int} (fits : -2 ^ 63 ≤ exact ∧ exact < 2 ^ 63) :
    (Int64.ofInt exact).toInt = exact := by
  rw [Int64.toInt_ofInt]
  apply Int.bmod_eq_of_le
  · simp only [Int64.size]
    omega
  · simp only [Int64.size]
    omega

theorem meetsInteger_integerResult (exact : Int) :
    MeetsInteger exact (integerResult profile exact) ↔ -2 ^ 63 ≤ exact ∧ exact < 2 ^ 63 := by
  constructor
  · rintro (⟨value, -, rfl⟩ | ⟨error, fails⟩)
    · exact ⟨value.le_toInt, value.toInt_lt⟩
    · unfold integerResult at fails
      split at fails
      · cases fails
      · cases profile with
        | debug => cases fails
        | release => cases fails
  · intro fits
    unfold integerResult
    rw [if_pos fits]
    exact .inl ⟨_, rfl, toInt_ofInt_of_fits fits⟩

/-- A quotient is no larger than the dividend, and a remainder is smaller than the divisor. -/
theorem quotient_fits {a b : Int64} (safe : ¬ (a = Int64.minValue ∧ b = -1)) (nonzero : b ≠ 0) :
    (-2 ^ 63 ≤ a.toInt.tdiv b.toInt ∧ a.toInt.tdiv b.toInt < 2 ^ 63) ∧
      (-2 ^ 63 ≤ a.toInt.tmod b.toInt ∧ a.toInt.tmod b.toInt < 2 ^ 63) := by
  have lowerA := a.le_toInt
  have upperA := a.toInt_lt
  have lowerB := b.le_toInt
  have upperB := b.toInt_lt
  have divisor : b.toInt ≠ 0 := fun zero => nonzero (Int64.toInt_inj.mp zero)
  have size : (a.toInt.tdiv b.toInt).natAbs = a.toInt.natAbs / b.toInt.natAbs :=
    Int.natAbs_tdiv _ _
  constructor
  · by_cases one : b.toInt.natAbs = 1
    · rcases Int.natAbs_eq b.toInt with plus | minus
      · rw [plus, one]
        simpa using ⟨lowerA, upperA⟩
      · have sign : b.toInt = -1 := by omega
        have other : a.toInt ≠ -2 ^ 63 := fun least =>
          safe ⟨Int64.toInt_inj.mp least, Int64.toInt_inj.mp sign⟩
        rw [sign, Int.tdiv_neg, Int.tdiv_one]
        omega
    · have half : a.toInt.natAbs / b.toInt.natAbs ≤ a.toInt.natAbs / 2 :=
        Nat.div_le_div_left (by omega) (by decide)
      omega
  · have remainder := Int.natAbs_tmod a.toInt b.toInt
    have smaller : a.toInt.natAbs % b.toInt.natAbs < b.toInt.natAbs :=
      Nat.mod_lt _ (by omega)
    omega

theorem meetsInteger_quotient {op : BinaryOperator} (divides : op = .divide ∨ op = .modulo)
    {a b : Int64} (nonzero : b ≠ 0) :
    MeetsInteger (exactInteger op a.toInt b.toInt) (quotient (exactInteger op) a b) ↔
      ¬ (a = Int64.minValue ∧ b = -1) := by
  unfold quotient
  constructor
  · intro meets least
    rw [if_pos least] at meets
    rcases meets with ⟨value, returns, -⟩ | ⟨error, fails⟩
    · cases returns
    · cases fails
  · intro safe
    rw [if_neg safe]
    obtain ⟨fitsQuotient, fitsRemainder⟩ := quotient_fits safe nonzero
    rcases divides with rfl | rfl
    · exact .inl ⟨_, rfl, toInt_ofInt_of_fits fitsQuotient⟩
    · exact .inl ⟨_, rfl, toInt_ofInt_of_fits fitsRemainder⟩

theorem meetsInteger_iff {op : BinaryOperator} (arithmetic : op ∈ arithmeticOperators)
    (a b : Int64) :
    MeetsInteger (exactInteger op a.toInt b.toInt)
      (applyBinaryOp profile kit library position op (.integer a) (.integer b)) ↔
        IntegerSafe op a b := by
  have byZero {op : BinaryOperator} (divides : op = .divide ∨ op = .modulo) (zero : b = 0) :
      MeetsInteger (exactInteger op a.toInt b.toInt) (divisionByZero position) ↔
        IntegerSafe op a b := by
    have safe : IntegerSafe op a b := by
      rcases divides with rfl | rfl
      all_goals
        rintro ⟨-, minusOne⟩
        rw [zero] at minusOne
        exact absurd minusOne (by decide)
    exact iff_of_true (.inr ⟨_, rfl⟩) safe
  simp only [arithmeticOperators, List.mem_cons, List.not_mem_nil, or_false] at arithmetic
  rcases arithmetic with rfl | rfl | rfl | rfl | rfl
  · exact meetsInteger_integerResult profile _
  · exact meetsInteger_integerResult profile _
  · exact meetsInteger_integerResult profile _
  · rw [applyBinaryOp, opDivide]
    split
    · rename_i zero
      exact byZero (.inl rfl) zero
    · rename_i nonzero
      exact meetsInteger_quotient (.inl rfl) nonzero
  · rw [applyBinaryOp, opModulo]
    split
    · rename_i zero
      exact byZero (.inr rfl) zero
    · rename_i nonzero
      exact meetsInteger_quotient (.inr rfl) nonzero

theorem meetsInteger_negate_iff (a : Int64) :
    MeetsInteger (-a.toInt) (applyUnaryOp profile position .negate (.integer a)) ↔
      a ≠ Int64.minValue := by
  rw [applyUnaryOp, meetsInteger_integerResult]
  have lower := a.le_toInt
  have upper := a.toInt_lt
  rw [← Int64.toInt_inj.ne]
  change _ ↔ a.toInt ≠ -2 ^ 63
  omega

theorem toRat_ofInteger (value : Int64) : (Decimal.ofInteger value).toRat = value.toInt := by
  have sign : value < 0 ↔ value.toInt < 0 := Int64.lt_iff_toInt_lt
  have shown : (Decimal.ofInteger value).toRat =
      (if value < 0 then -1 else 1) * (value.toInt.natAbs : Rat) := by
    simp [Decimal.toRat, Decimal.ofInteger]
  rw [shown]
  split
  · rename_i negative
    have size : (value.toInt.natAbs : Int) = -value.toInt := by
      have below := sign.mp negative
      omega
    rw [← Int.cast_natCast, size, Int.cast_neg, neg_one_mul, neg_neg]
  · rename_i positive
    have size : (value.toInt.natAbs : Int) = value.toInt := by
      have above := (not_congr sign).mp positive
      omega
    rw [← Int.cast_natCast, size, one_mul]

theorem toRat_toDecimal (number : Number) : number.toDecimal.toRat = number.toRat := by
  cases number with
  | integer value => exact toRat_ofInteger value
  | decimal value => rfl

theorem isZero_ofInteger (value : Int64) :
    (Decimal.ofInteger value).isZero = true ↔ value = 0 := by
  rw [Decimal.isZero, Decimal.ofInteger, decide_eq_true_eq, Int.natAbs_eq_zero]
  change value.toInt = (0 : Int64).toInt ↔ value = 0
  exact Int64.toInt_inj

theorem meetsRational_decimalResult (exact : Rat) (result : Option Decimal) :
    MeetsRational exact (decimalResult result) ↔
      ∃ value, result = some value ∧ value.toRat = exact := by
  cases result with
  | none =>
      constructor
      · rintro (⟨value, returns, -⟩ | ⟨error, fails⟩)
        · cases returns
        · cases fails
      · rintro ⟨value, found, -⟩
        cases found
  | some value =>
      constructor
      · rintro (⟨other, returns, same⟩ | ⟨error, fails⟩)
        · cases returns
          exact ⟨value, rfl, same⟩
        · cases fails
      · rintro ⟨other, found, same⟩
        cases found
        exact .inl ⟨value, rfl, same⟩

section Mixed

variable {left right : Number} (mixed : (left.isInteger && right.isInteger) = false)
include mixed

theorem applyBinaryOp_decimals {op : BinaryOperator}
    (plain : op = .add ∨ op = .subtract ∨ op = .multiply) :
    applyBinaryOp profile kit library position op left.toValue right.toValue =
      decimalResult (kit.decimalOp op left.toDecimal right.toDecimal) := by
  cases left with
  | integer a =>
      cases right with
      | integer b => cases mixed
      | decimal b => rcases plain with rfl | rfl | rfl <;> rfl
  | decimal a =>
      cases right with
      | integer b => rcases plain with rfl | rfl | rfl <;> rfl
      | decimal b => rcases plain with rfl | rfl | rfl <;> rfl

theorem applyBinaryOp_divide_decimals :
    applyBinaryOp profile kit library position .divide left.toValue right.toValue =
      if right.toDecimal.isZero then divisionByZero position
      else decimalResult (kit.decimalDivide left.toDecimal right.toDecimal) := by
  cases left with
  | integer a =>
      cases right with
      | integer b => cases mixed
      | decimal b => rfl
  | decimal a =>
      cases right with
      | integer b =>
          change (if b = 0 then divisionByZero position
            else decimalResult (kit.decimalDivide a (.ofInteger b))) =
              if (Decimal.ofInteger b).isZero = true then divisionByZero position
              else decimalResult (kit.decimalDivide a (.ofInteger b))
          simp only [isZero_ofInteger b]
      | decimal b => rfl

theorem applyBinaryOp_modulo_decimals :
    IsError (applyBinaryOp profile kit library position .modulo left.toValue right.toValue) := by
  cases left with
  | integer a =>
      cases right with
      | integer b => cases mixed
      | decimal b => exact ⟨_, rfl⟩
  | decimal a =>
      cases right with
      | integer b => exact ⟨_, rfl⟩
      | decimal b => exact ⟨_, rfl⟩

theorem meetsRational_iff {op : BinaryOperator} (arithmetic : op ∈ arithmeticOperators) :
    MeetsRational (exactRational op left.toDecimal.toRat right.toDecimal.toRat)
      (applyBinaryOp profile kit library position op left.toValue right.toValue) ↔
        DecimalSafe kit op left.toDecimal right.toDecimal := by
  have computed {op : BinaryOperator} (notModulo : op ≠ .modulo)
      (notZero : ¬ (op = .divide ∧ right.toDecimal.isZero = true)) :
      MeetsRational (exactRational op left.toDecimal.toRat right.toDecimal.toRat)
        (decimalResult (kit.decimalOp op left.toDecimal right.toDecimal)) ↔
          DecimalSafe kit op left.toDecimal right.toDecimal := by
    rw [meetsRational_decimalResult]
    constructor
    · exact fun safe => .inr (.inr safe)
    · rintro (same | zero | safe)
      · exact absurd same notModulo
      · exact absurd zero notZero
      · exact safe
  simp only [arithmeticOperators, List.mem_cons, List.not_mem_nil, or_false] at arithmetic
  rcases arithmetic with rfl | rfl | rfl | rfl | rfl
  · rw [applyBinaryOp_decimals profile kit library position mixed (.inl rfl)]
    exact computed (by decide) (by simp)
  · rw [applyBinaryOp_decimals profile kit library position mixed (.inr (.inl rfl))]
    exact computed (by decide) (by simp)
  · rw [applyBinaryOp_decimals profile kit library position mixed (.inr (.inr rfl))]
    exact computed (by decide) (by simp)
  · rw [applyBinaryOp_divide_decimals profile kit library position mixed]
    split
    · rename_i zero
      exact iff_of_true (.inr ⟨_, rfl⟩) (.inr (.inl ⟨rfl, zero⟩))
    · rename_i nonzero
      exact computed (by decide) fun zero => nonzero zero.2
  · exact iff_of_true (.inr (applyBinaryOp_modulo_decimals profile kit library position mixed))
      (.inl rfl)

end Mixed

/-- In either build the operators return the exact result or an error if and only if the result
fits. -/
theorem exact_iff :
    (∀ op ∈ arithmeticOperators, ∀ a b : Int64,
      MeetsInteger (exactInteger op a.toInt b.toInt)
        (applyBinaryOp profile kit library position op (.integer a) (.integer b)) ↔
          IntegerSafe op a b) ∧
    (∀ a : Int64, MeetsInteger (-a.toInt) (applyUnaryOp profile position .negate (.integer a)) ↔
      a ≠ Int64.minValue) ∧
    ∀ op ∈ arithmeticOperators, ∀ left right : Number,
      (left.isInteger && right.isInteger) = false →
      (MeetsRational (exactRational op left.toRat right.toRat)
        (applyBinaryOp profile kit library position op left.toValue right.toValue) ↔
          DecimalSafe kit op left.toDecimal right.toDecimal) := by
  refine ⟨?_, ?_, ?_⟩
  · intro op arithmetic a b
    exact meetsInteger_iff profile kit library position arithmetic a b
  · intro a
    exact meetsInteger_negate_iff profile position a
  · intro op arithmetic left right mixed
    rw [← toRat_toDecimal left, ← toRat_toDecimal right]
    exact meetsRational_iff profile kit library position mixed arithmetic

/-- A kit whose decimal operations all overflow. -/
def overflowingKit : NumberKit where
  decimalAdd _ _ := none
  decimalSubtract _ _ := none
  decimalMultiply _ _ := none
  decimalDivide _ _ := none
  decimalCompare _ _ := .eq
  floatOfInteger _ := ⟨0⟩
  floatAdd a _ := a
  floatSubtract a _ := a
  floatMultiply a _ := a
  floatDivide a _ := a
  floatRemainder a _ := a
  floatCompare _ _ := none

/-- The greatest integer and one: another integer in a release build, a panic in a debug
build; and a remainder that both builds panic at. -/
theorem greatest_plus_one :
    applyBinaryOp .release overflowingKit scalarLibrary ⟨1, 1⟩ .add (.integer Int64.maxValue)
        (.integer 1) = .ok (.integer Int64.minValue) ∧
      applyBinaryOp .debug overflowingKit scalarLibrary ⟨1, 1⟩ .add (.integer Int64.maxValue)
        (.integer 1) = .error .panic ∧
      applyBinaryOp .release overflowingKit scalarLibrary ⟨1, 1⟩ .modulo (.integer Int64.minValue)
        (.integer (-1)) = .error .panic ∧
      ∀ profile, ¬ MeetsInteger (Int64.maxValue.toInt + 1)
        (applyBinaryOp profile overflowingKit scalarLibrary ⟨1, 1⟩ .add
          (.integer Int64.maxValue) (.integer 1)) := by
  refine ⟨rfl, rfl, rfl, ?_⟩
  intro profile meets
  have fits := (meetsInteger_integerResult profile (Int64.maxValue.toInt + 1)).mp meets
  exact absurd fits.2 (by decide)

end Operators
end Marreta
