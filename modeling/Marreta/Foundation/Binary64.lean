import Mathlib

namespace Marreta

/-! Double-precision numbers as bit patterns.  The language reads decimal texts,
scales them and turns them into integers, so a number is its IEEE encoding and
the operations here are the correctly rounded reading of a ratio and the
conversions built on it. -/

structure Binary64 where
  bits : UInt64
deriving DecidableEq

namespace Binary64

def infinity : Binary64 := ⟨0x7FF0000000000000⟩

/-- Quotient of two naturals rounded to nearest, ties to even. -/
def roundedQuotient (numerator denominator : Nat) : Nat :=
  let quotient := numerator / denominator
  let remainder := numerator % denominator
  if 2 * remainder < denominator then quotient
  else if denominator < 2 * remainder then quotient + 1
  else quotient + quotient % 2

/-- Encode `mantissa * 2 ^ (exponent - 1074)`, where the mantissa has at most
53 bits and the exponent is zero for subnormal values. -/
def encode (mantissa exponent : Nat) : Binary64 :=
  if mantissa = 2 ^ 53 then encodeNormal (2 ^ 52) (exponent + 1)
  else if mantissa < 2 ^ 52 then ⟨UInt64.ofNat mantissa⟩
  else encodeNormal mantissa exponent
where
  encodeNormal (mantissa exponent : Nat) : Binary64 :=
    if 2046 ≤ exponent then infinity
    else ⟨UInt64.ofNat ((exponent + 1) * 2 ^ 52 + (mantissa - 2 ^ 52))⟩

/-- The double nearest to `numerator / denominator`. -/
def ofRatio (numerator denominator : Nat) : Binary64 :=
  if numerator = 0 then ⟨0⟩
  else
    -- `numerator / denominator` scaled by 2 ^ 1074 has this many bits or one fewer.
    let scaled := numerator * 2 ^ 1074 / denominator
    let exponent := Nat.log2 scaled - 52
    encode (roundedQuotient (numerator * 2 ^ 1074) (denominator * 2 ^ exponent)) exponent

example : ofRatio 3 2 = ⟨0x3FF8000000000000⟩ := by decide +kernel
example : ofRatio 1 10 = ⟨0x3FB999999999999A⟩ := by decide +kernel

/-- Read a literal of the form `digits.digits`, given as the number without
its dot and the count of digits after the dot. -/
def ofDecimal (digits fractionDigits : Nat) : Binary64 :=
  ofRatio digits (10 ^ fractionDigits)

/-! ## Conversions -/

def isNegative (value : Binary64) : Bool :=
  2 ^ 63 ≤ value.bits.toNat

def exponentBits (value : Binary64) : Nat :=
  value.bits.toNat / 2 ^ 52 % 2048

def fractionBits (value : Binary64) : Nat :=
  value.bits.toNat % 2 ^ 52

def isNan (value : Binary64) : Bool :=
  value.exponentBits = 2047 ∧ value.fractionBits ≠ 0

/-- The absolute value times 2 ^ 1074, for finite numbers. -/
def magnitude? (value : Binary64) : Option Nat :=
  if value.exponentBits = 2047 then none
  else if value.exponentBits = 0 then some value.fractionBits
  else some ((2 ^ 52 + value.fractionBits) * 2 ^ (value.exponentBits - 1))

def withSign (negative : Bool) (value : Binary64) : Binary64 :=
  if negative then ⟨value.bits ||| 0x8000000000000000⟩ else value

/-- The nearest 64-bit integer. -/
def saturate (negative : Bool) (magnitude : Nat) : Int64 :=
  if negative then
    if 2 ^ 63 ≤ magnitude then Int64.minValue else Int64.ofInt (-magnitude)
  else
    if 2 ^ 63 ≤ magnitude then Int64.maxValue else Int64.ofNat magnitude

/-- What infinities and NaN become as integers. -/
def saturateSpecial (value : Binary64) : Int64 :=
  if value.isNan then 0 else saturate value.isNegative (2 ^ 63)

/-- `as i64`: truncation, with the ends of the range for what lies outside. -/
def toInt64 (value : Binary64) : Int64 :=
  match value.magnitude? with
  | some magnitude => saturate value.isNegative (magnitude / 2 ^ 1074)
  | none => value.saturateSpecial

/-- `.round() as i64`: halves go away from zero. -/
def roundToInt64 (value : Binary64) : Int64 :=
  match value.magnitude? with
  | some magnitude => saturate value.isNegative ((magnitude + 2 ^ 1073) / 2 ^ 1074)
  | none => value.saturateSpecial

def timesThousand (value : Binary64) : Binary64 :=
  match value.magnitude? with
  | some magnitude => withSign value.isNegative (ofRatio (magnitude * 1000) (2 ^ 1074))
  | none => value

example : (ofRatio 5 2).roundToInt64 = 3 := by decide +kernel
example : (withSign true infinity).toInt64 = Int64.minValue := by decide +kernel

/-! ## Reading texts -/

def digitsValue (digits : List Char) : Nat :=
  digits.foldl (fun value digit => 10 * value + (digit.toNat - '0'.toNat)) 0

/-- Digits with at most one dot: the digits, and how many stand behind the
dot. -/
def parseMantissa (text : List Char) : Option (List Char × Nat) :=
  let whole := text.takeWhile (· ≠ '.')
  let fraction := (text.dropWhile (· ≠ '.')).drop 1
  let digits := whole ++ fraction
  if digits ≠ [] ∧ digits.all Char.isDigit then some (digits, fraction.length) else none

def splitSign : List Char → Bool × List Char
  | '-' :: rest => (true, rest)
  | '+' :: rest => (false, rest)
  | text => (false, text)

def parseExponent (text : List Char) : Option Int :=
  let (negative, digits) := splitSign text
  if digits ≠ [] ∧ digits.all Char.isDigit then
    some (if negative then -(digitsValue digits : Int) else digitsValue digits)
  else none

/-- The value of `digits * 10 ^ exponent`. -/
def ofScientific (digits : Nat) (exponent : Int) : Binary64 :=
  ofRatio (digits * 10 ^ exponent.toNat) (10 ^ (-exponent).toNat)

def parseUnsigned (text : List Char) : Option Binary64 :=
  let isExponent (char : Char) : Bool := char = 'e' || char = 'E'
  match text.map Char.toLower with
  | ['i', 'n', 'f'] | ['i', 'n', 'f', 'i', 'n', 'i', 't', 'y'] => some infinity
  | ['n', 'a', 'n'] => some ⟨0x7FF8000000000000⟩
  | _ => do
      let (digits, behind) ← parseMantissa (text.takeWhile (!isExponent ·))
      let exponent ← match text.dropWhile (!isExponent ·) with
        | [] => some 0
        | _ :: exponent => parseExponent exponent
      return ofScientific (digitsValue digits) (exponent - behind)

/-- `str::parse::<f64>`. -/
def parse (text : List Char) : Option Binary64 :=
  let (negative, rest) := splitSign text
  (parseUnsigned rest).map (withSign negative)

example : parse "-1.5e1".toList = some (withSign true (ofRatio 15 1)) := by decide +kernel

end Binary64
end Marreta
