import Marreta.Foundation.Binary64Sums

namespace Marreta
namespace Binary64

/-! Integers that travel through doubles.

The double of a 64-bit integer stands for a whole number near it.  The operations here keep
whole numbers, so what is read back is the integer exactly when the double could hold it. -/

/-- `.floor() as i64`. -/
def floorToInt64 (value : Binary64) : Int64 :=
  match value.magnitude? with
  | some magnitude =>
      let rest := if value.isNegative then 2 ^ 1074 - 1 else 0
      saturate value.isNegative ((magnitude + rest) / 2 ^ 1074)
  | none => value.saturateSpecial

/-- `.ceil() as i64`. -/
def ceilToInt64 (value : Binary64) : Int64 :=
  match value.magnitude? with
  | some magnitude =>
      let rest := if value.isNegative then 0 else 2 ^ 1074 - 1
      saturate value.isNegative ((magnitude + rest) / 2 ^ 1074)
  | none => value.saturateSpecial

/-- `.round()`. -/
def round (value : Binary64) : Binary64 :=
  match value.magnitude? with
  | some magnitude => withSign value.isNegative (ofRatio ((magnitude + 2 ^ 1073) / 2 ^ 1074) 1)
  | none => value

/-- `.abs()`. -/
def abs (value : Binary64) : Binary64 :=
  ⟨value.bits &&& 0x7FFFFFFFFFFFFFFF⟩

/-- `>`. -/
def greater (left right : Binary64) : Bool :=
  left.partialCompare right = some .gt

/-- `f64::min`: a NaN gives way to the other argument. -/
def minimum (left right : Binary64) : Binary64 :=
  if left.isNan then right else if left.greater right then right else left

/-- `f64::max`. -/
def maximum (left right : Binary64) : Binary64 :=
  if left.isNan then right else if right.greater left then right else left

/-! ## Doubles of whole numbers -/

section Holds

variable {value left right : Binary64} {number first second : Int}

theorem Holds.magnitude (holds : Holds value number) :
    value.magnitude? = some (number.natAbs * 2 ^ 1074) := by
  have units := holds.units
  rw [Binary64.units, magnitude?_of_finite holds.finite, Option.getD_some] at units
  rw [magnitude?_of_finite holds.finite]
  have sizes := congrArg Int.natAbs units
  rw [natAbs_mul_two_pow] at sizes
  rw [← sizes]
  split <;> simp

theorem Holds.toInt64_eq (holds : Holds value number) :
    value.toInt64 = saturate value.isNegative number.natAbs := by
  rw [Binary64.toInt64, holds.magnitude]
  dsimp only
  rw [Nat.mul_div_cancel _ (Nat.two_pow_pos 1074)]

/-- What is added below a whole unit is cut off. -/
theorem whole_div (number : Nat) {unit rest : Nat} (small : rest < unit) :
    (number * unit + rest) / unit = number := by
  rw [Nat.mul_comm, Nat.mul_add_div (Nat.zero_lt_of_lt small), Nat.div_eq_of_lt small,
    Nat.add_zero]

theorem floorRest_lt {unit : Nat} (positive : 0 < unit) (negative : Bool) :
    (if negative then unit - 1 else 0) < unit := by
  cases negative with
  | true => exact Nat.sub_one_lt_of_lt positive
  | false => exact positive

theorem ceilRest_lt {unit : Nat} (positive : 0 < unit) (negative : Bool) :
    (if negative then 0 else unit - 1) < unit := by
  cases negative with
  | true => exact positive
  | false => exact Nat.sub_one_lt_of_lt positive

theorem two_pow_lt {shift next : Nat} (less : shift < next) : 2 ^ shift < 2 ^ next :=
  Nat.pow_lt_pow_right (by omega) less

theorem Holds.floorToInt64 (holds : Holds value number) : value.floorToInt64 = value.toInt64 := by
  rw [Binary64.floorToInt64, holds.magnitude, holds.toInt64_eq]
  dsimp only
  rw [whole_div number.natAbs (floorRest_lt (Nat.two_pow_pos 1074) value.isNegative)]

theorem Holds.ceilToInt64 (holds : Holds value number) : value.ceilToInt64 = value.toInt64 := by
  rw [Binary64.ceilToInt64, holds.magnitude, holds.toInt64_eq]
  dsimp only
  rw [whole_div number.natAbs (ceilRest_lt (Nat.two_pow_pos 1074) value.isNegative)]

theorem Holds.roundToInt64 (holds : Holds value number) : value.roundToInt64 = value.toInt64 := by
  rw [Binary64.roundToInt64, holds.magnitude, holds.toInt64_eq]
  dsimp only
  rw [whole_div number.natAbs (two_pow_lt (Nat.lt_succ_self 1073))]

/-- A number is read back as it is, and the least number beyond the integers as the greatest
of them. -/
theorem Holds.toInt64_eq_iff (holds : Holds value number) (lower : -2 ^ 63 ≤ number)
    (upper : number ≤ 2 ^ 63) {other : Int} :
    value.toInt64.toInt = other ↔ min number (2 ^ 63 - 1) = other := by
  rcases Int.lt_or_eq_of_le upper with fits | rfl
  · rw [holds.toInt64 lower fits, min_eq_left (by omega)]
  · have sign : value.isNegative = false := by
      cases known : value.isNegative with
      | false => rfl
      | true =>
          have units := holds.units
          rw [Binary64.units, known, if_pos rfl] at units
          have positive : (0 : Int) < 2 ^ 63 * 2 ^ 1074 :=
            Int.mul_pos (Int.pow_pos (by omega)) (Int.pow_pos (by omega))
          omega
    rw [holds.toInt64_eq, sign]
    rfl

theorem Holds.greater_iff (leftHolds : Holds left first) (rightHolds : Holds right second) :
    left.greater right = true ↔ second < first := by
  have positive : (0 : Int) < 2 ^ 1074 := Int.pow_pos (by omega)
  rw [greater, partialCompare, isNan_of_finite leftHolds.finite,
    isNan_of_finite rightHolds.finite, extended, extended, leftHolds.magnitude,
    rightHolds.magnitude, decide_eq_true_iff]
  simp only [leftHolds.units, rightHolds.units, Bool.or_self, Bool.false_eq_true, if_false,
    Option.some.injEq, compare_gt_iff_gt]
  exact Int.mul_lt_mul_right positive

theorem Holds.minimum (leftHolds : Holds left first) (rightHolds : Holds right second) :
    Holds (Binary64.minimum left right) (min first second) := by
  rw [Binary64.minimum, isNan_of_finite leftHolds.finite, if_neg Bool.false_ne_true]
  by_cases larger : second < first
  · rw [if_pos ((leftHolds.greater_iff rightHolds).mpr larger), min_eq_right (by omega)]
    exact rightHolds
  · rw [if_neg fun greater => larger ((leftHolds.greater_iff rightHolds).mp greater),
      min_eq_left (by omega)]
    exact leftHolds

theorem Holds.maximum (leftHolds : Holds left first) (rightHolds : Holds right second) :
    Holds (Binary64.maximum left right) (max first second) := by
  rw [Binary64.maximum, isNan_of_finite leftHolds.finite, if_neg Bool.false_ne_true]
  by_cases larger : first < second
  · rw [if_pos ((rightHolds.greater_iff leftHolds).mpr larger), max_eq_right (by omega)]
    exact rightHolds
  · rw [if_neg fun greater => larger ((rightHolds.greater_iff leftHolds).mp greater),
      max_eq_left (by omega)]
    exact leftHolds

end Holds

/-! ## The double of an integer -/

theorem log2_mul_two_pow {number : Nat} (positive : number ≠ 0) (shift : Nat) :
    Nat.log2 (number * 2 ^ shift) = Nat.log2 number + shift := by
  induction shift with
  | zero => rw [Nat.pow_zero, Nat.mul_one, Nat.add_zero]
  | succ shift induction =>
      have still : number * 2 ^ shift ≠ 0 :=
        Nat.mul_ne_zero positive (Nat.ne_of_gt (Nat.two_pow_pos shift))
      rw [Nat.pow_succ 2 shift, ← Nat.mul_assoc, Nat.mul_comm _ 2, Nat.log2_two_mul still,
        induction, Nat.add_assoc]

/-- Rounding keeps the first 53 bits, wherever they stand. -/
theorem nearest_mul_two_pow (number shift : Nat) :
    nearest (number * 2 ^ shift) = nearest number * 2 ^ shift := by
  by_cases small : number < 2 ^ 53
  · have self : number = number * 2 ^ 0 := (Nat.mul_one number).symm
    rw [@nearest_eq_self (number * 2 ^ shift) number shift small rfl, nearest_eq_self small self]
  · have positive : number ≠ 0 := by omega
    have large : 52 ≤ Nat.log2 number := (Nat.le_log2 positive).mpr (by omega)
    have shifted : excess (number * 2 ^ shift) = excess number + shift := by
      rw [excess, excess, log2_mul_two_pow positive]
      omega
    rw [nearest, nearest, shifted, Nat.pow_add, Nat.mul_comm number,
      Nat.mul_comm (2 ^ excess number), roundedQuotient_mul_left (Nat.two_pow_pos shift)]
    ring

/-- The whole number that the double of an integer stands for. -/
def nearestInteger (number : Int) : Int :=
  if number < 0 then -(nearest number.natAbs : Int) else nearest number.natAbs

theorem holds_nearestInteger (number : Int64) :
    Holds (ofInt64 number) (nearestInteger number.toInt) := by
  refine ⟨hasMagnitude_ofInt64 number, ?_⟩
  rw [units_ofInt64, nearest_mul_two_pow, nearestInteger, Nat.cast_mul, Nat.cast_pow,
    Nat.cast_ofNat]
  split
  · rw [Int.neg_mul]
  · rfl

theorem nearestInteger_mono {first second : Int} (ordered : first ≤ second) :
    nearestInteger first ≤ nearestInteger second := by
  rw [nearestInteger, nearestInteger]
  have rounded {small large : Int} (smaller : small.natAbs ≤ large.natAbs) :
      (nearest small.natAbs : Int) ≤ nearest large.natAbs :=
    Int.ofNat_le.mpr (nearest_mono smaller)
  split_ifs with firstNegative secondNegative secondNegative
  · exact Int.neg_le_neg (rounded (by omega))
  · omega
  · omega
  · exact rounded (by omega)

theorem isHeld_iff_nearestInteger (number : Int) :
    IsHeld number ↔ nearestInteger number = number := by
  have absolute : nearestInteger number = number ↔ nearest number.natAbs = number.natAbs := by
    rw [nearestInteger]
    split <;> omega
  rw [absolute]
  constructor
  · rintro ⟨mantissa, shift, bounded, same⟩
    exact nearest_eq_self bounded same
  · intro same
    have bound := roundedQuotient_excess_le number.natAbs
    rw [nearest] at same
    rcases Nat.lt_or_eq_of_le bound with bounded | full
    · exact ⟨_, _, bounded, same.symm⟩
    · refine ⟨1, 53 + excess number.natAbs, by omega, ?_⟩
      rw [full] at same
      rw [Nat.one_mul, Nat.pow_add, same]

theorem isHeld_two_pow (shift : Nat) : IsHeld (2 ^ shift) := by
  refine ⟨1, shift, by omega, ?_⟩
  rw [Int.natAbs_pow, Nat.one_mul]
  rfl

theorem isHeld_neg_two_pow (shift : Nat) : IsHeld (-2 ^ shift) := by
  refine ⟨1, shift, by omega, ?_⟩
  rw [Int.natAbs_neg, Int.natAbs_pow, Nat.one_mul]
  rfl

/-- The integers that come back from a double: those that a double holds, and the greatest. -/
def Kept (number : Int) : Prop :=
  IsHeld number ∨ number = 2 ^ 63 - 1

theorem read_eq_iff_kept {value : Binary64} {number : Int}
    (holds : Holds value (nearestInteger number)) (lower : -2 ^ 63 ≤ number)
    (upper : number < 2 ^ 63) : value.toInt64.toInt = number ↔ Kept number := by
  have least := (isHeld_iff_nearestInteger _).mp (isHeld_neg_two_pow 63)
  have greatest := (isHeld_iff_nearestInteger _).mp (isHeld_two_pow 63)
  have above := nearestInteger_mono lower
  have below := nearestInteger_mono (Int.le_of_lt upper)
  rw [least] at above
  rw [greatest] at below
  rw [holds.toInt64_eq_iff above below, Kept, isHeld_iff_nearestInteger]
  have rounded : nearestInteger (2 ^ 63 - 1) = 2 ^ 63 := by decide +kernel
  constructor
  · omega
  · rintro (same | rfl)
    · omega
    · rw [rounded]
      omega

end Binary64
end Marreta
