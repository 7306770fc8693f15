import Marreta.Foundation.Binary64Values

namespace Marreta
namespace Binary64

/-! Sums and comparisons of doubles.

A sum is the double nearest to the exact sum, so a sum that a double can hold is exact. -/

def nan : Binary64 := ⟨0x7FF8000000000000⟩

/-- `+`. -/
def add (left right : Binary64) : Binary64 :=
  match left.magnitude?, right.magnitude? with
  | some _, some _ =>
      let total := left.units + right.units
      if total = 0 then withSign (left.isNegative && right.isNegative) ⟨0⟩
      else withSign (total < 0) (ofRatio total.natAbs (2 ^ 1074))
  | none, some _ => left
  | some _, none => right
  | none, none =>
      if left.isNan then left
      else if right.isNan then right
      else if left.isNegative = right.isNegative then left
      else nan

/-- The number times 2 ^ 1074, with the infinities beyond all numbers. -/
def extended (value : Binary64) : Int :=
  match value.magnitude? with
  | some _ => value.units
  | none => if value.isNegative then -2 ^ 2098 else 2 ^ 2098

/-- `partial_cmp`: no NaN is compared. -/
def partialCompare (left right : Binary64) : Option Ordering :=
  if left.isNan || right.isNan then none else some (compare left.extended right.extended)

/-! ## Rounding by ratios -/

theorem roundedQuotient_mul_left {factor : Nat} (positive : 0 < factor)
    (numerator denominator : Nat) :
    roundedQuotient (factor * numerator) (factor * denominator) =
      roundedQuotient numerator denominator := by
  have scaled (first second : Nat) :
      factor * first < factor * second ↔ first < second := Nat.mul_lt_mul_left positive
  rw [roundedQuotient, roundedQuotient, Nat.mul_div_mul_left _ _ positive,
    Nat.mul_mod_mul_left]
  simp only [Nat.mul_left_comm 2 factor, scaled]

theorem ofRatio_mul_left {factor : Nat} (positive : 0 < factor) (numerator denominator : Nat) :
    ofRatio (factor * numerator) (factor * denominator) = ofRatio numerator denominator := by
  unfold ofRatio
  have zero : factor * numerator = 0 ↔ numerator = 0 := by
    rw [Nat.mul_eq_zero]
    omega
  simp only [zero, Nat.mul_assoc factor, Nat.mul_div_mul_left _ _ positive,
    roundedQuotient_mul_left positive]

/-- A whole number with at most 53 bits between its first and its last one. -/
def IsHeld (number : Int) : Prop :=
  ∃ mantissa shift, mantissa < 2 ^ 53 ∧ number.natAbs = mantissa * 2 ^ shift

/-- The double of a whole number. -/
structure Holds (value : Binary64) (number : Int) : Prop where
  finite : value.hasMagnitude
  units : value.units = number * 2 ^ 1074

/-! ## Exact sums -/

theorem natAbs_mul_two_pow (number : Int) (shift : Nat) :
    (number * 2 ^ shift).natAbs = number.natAbs * 2 ^ shift := by
  rw [Int.natAbs_mul, Int.natAbs_pow]
  rfl

theorem mul_two_pow_neg_iff (number : Int) (shift : Nat) :
    number * 2 ^ shift < 0 ↔ number < 0 := by
  have positive : (0 : Int) < 2 ^ shift := Int.pow_pos (by omega)
  constructor
  · intro negative
    by_contra least
    exact absurd (Int.mul_nonneg (Int.not_lt.mp least) (Int.le_of_lt positive))
      (Int.not_le.mpr negative)
  · exact fun negative => Int.mul_neg_of_neg_of_pos negative positive

theorem mul_two_pow_eq_zero {number : Int} {shift : Nat} (zero : number * 2 ^ shift = 0) :
    number = 0 :=
  (Int.mul_eq_zero.mp zero).resolve_right (Int.ne_of_gt (Int.pow_pos (by omega)))

theorem zero_mul_two_pow (shift : Nat) : (0 : Int) * 2 ^ shift = 0 :=
  Int.zero_mul _

theorem nearest_of_isHeld {number : Int} (held : IsHeld number) :
    nearest (number.natAbs * 2 ^ 1074) = number.natAbs * 2 ^ 1074 := by
  obtain ⟨mantissa, shift, bounded, same⟩ := held
  apply @nearest_eq_self _ mantissa (shift + 1074) bounded
  rw [same, Nat.mul_assoc, ← Nat.pow_add]

/-- A number that a double can hold, with its sign put on. -/
theorem holds_withSign {value : Binary64} {number : Int}
    (encodes : Encodes value (number.natAbs * 2 ^ 1074)) :
    Holds (withSign (number < 0) value) number := by
  obtain ⟨finite, signed⟩ := encodes.withSign (number < 0)
  refine ⟨finite, signed.trans ?_⟩
  rw [Nat.cast_mul, Nat.cast_pow, Nat.cast_ofNat]
  split
  · rename_i negative
    have absolute : (number.natAbs : Int) = -number := by
      have below : number < 0 := of_decide_eq_true negative
      omega
    rw [absolute, Int.neg_mul, Int.neg_neg]
  · rename_i positive
    have absolute : (number.natAbs : Int) = number := by
      have above : ¬ number < 0 := fun below => positive (decide_eq_true below)
      omega
    rw [absolute]

theorem encodes_of_isHeld {number : Int} (held : IsHeld number) (small : number.natAbs < 2 ^ 64) :
    Encodes (ofRatio number.natAbs 1) (number.natAbs * 2 ^ 1074) := by
  have encodes := encodes_ofRatio small
  rwa [nearest_of_isHeld held] at encodes

theorem holds_ofInt64 {number : Int64} (held : IsHeld number.toInt) :
    Holds (ofInt64 number) number.toInt := by
  have sign : (number < 0) = (number.toInt < 0) := by
    rw [Int64.lt_iff_toInt_lt]
    rfl
  have signed := holds_withSign (encodes_of_isHeld held (natAbs_toInt_lt number))
  simp only [ofInt64, sign]
  exact signed

theorem holds_zero (negative : Bool) : Holds (withSign negative ⟨0⟩) 0 := by
  have encodes : Encodes ⟨0⟩ 0 := @encodes_of_parts ⟨0⟩ 0 0 (by omega) (by omega) rfl
  obtain ⟨finite, signed⟩ := encodes.withSign negative
  refine ⟨finite, signed.trans (Eq.trans ?_ (zero_mul_two_pow 1074).symm)⟩
  cases negative <;> rfl

theorem ofRatio_mul_right {factor : Nat} (positive : 0 < factor) (number : Nat) :
    ofRatio (number * factor) factor = ofRatio number 1 := by
  have ratio := ofRatio_mul_left positive number 1
  rwa [Nat.mul_one, Nat.mul_comm] at ratio

/-- A sum that a double can hold is exact. -/
theorem Holds.add {left right : Binary64} {first second : Int} (leftHolds : Holds left first)
    (rightHolds : Holds right second) (held : IsHeld (first + second))
    (small : (first + second).natAbs < 2 ^ 64) :
    Holds (Binary64.add left right) (first + second) := by
  have total : left.units + right.units = (first + second) * 2 ^ 1074 := by
    rw [leftHolds.units, rightHolds.units, Int.add_mul]
  rw [Binary64.add, magnitude?_of_finite leftHolds.finite, magnitude?_of_finite rightHolds.finite]
  dsimp only
  rw [total]
  split
  · rename_i zero
    rw [mul_two_pow_eq_zero zero]
    exact holds_zero _
  · rw [natAbs_mul_two_pow, ofRatio_mul_right (Nat.two_pow_pos 1074)]
    simp only [mul_two_pow_neg_iff]
    exact holds_withSign (encodes_of_isHeld held small)

theorem saturate_toInt {negative : Bool} {magnitude : Nat}
    (fits : if negative then magnitude ≤ 2 ^ 63 else magnitude < 2 ^ 63) :
    (saturate negative magnitude).toInt = if negative then -(magnitude : Int) else magnitude := by
  cases negative with
  | true =>
      simp only [if_true] at fits ⊢
      rw [saturate, if_pos rfl]
      split
      · have least : Int64.minValue.toInt = -2 ^ 63 := rfl
        rw [least]
        omega
      · rw [Int64.toInt_ofInt]
        apply Int.bmod_eq_of_le <;> simp only [Int64.size] <;> omega
  | false =>
      simp only [if_neg Bool.false_ne_true] at fits ⊢
      rw [saturate, if_neg Bool.false_ne_true, if_neg (by omega), Int64.toInt_ofNat_of_lt fits]

/-- A number that a double holds is read back by `as i64`. -/
theorem Holds.toInt64 {value : Binary64} {number : Int} (holds : Holds value number)
    (lower : -2 ^ 63 ≤ number) (upper : number < 2 ^ 63) : value.toInt64.toInt = number := by
  have units := holds.units
  rw [Binary64.units, magnitude?_of_finite holds.finite, Option.getD_some] at units
  rw [Binary64.toInt64, magnitude?_of_finite holds.finite]
  dsimp only
  generalize scaled value.exponentBits value.fractionBits = magnitude at units ⊢
  have sign := mul_two_pow_neg_iff number 1074
  have absolute : magnitude = number.natAbs * 2 ^ 1074 := by
    have sizes := congrArg Int.natAbs units
    rw [natAbs_mul_two_pow] at sizes
    rw [← sizes]
    split <;> simp
  rw [← units] at sign
  rw [absolute, Nat.mul_div_cancel _ (Nat.two_pow_pos 1074)]
  cases known : value.isNegative with
  | true =>
      rw [known, if_pos rfl] at sign
      have below : number ≤ 0 := by
        rcases Nat.eq_zero_or_pos magnitude with zero | positive
        · rw [known, if_pos rfl, zero] at units
          exact Int.le_of_eq (mul_two_pow_eq_zero (units.symm.trans Int.neg_zero))
        · exact Int.le_of_lt (sign.mp (Int.neg_neg_of_pos (Int.natCast_pos.mpr positive)))
      rw [@saturate_toInt true number.natAbs (by simp only [if_true]; omega), if_pos rfl]
      omega
  | false =>
      rw [known, if_neg Bool.false_ne_true] at sign
      have above : ¬ number < 0 := fun negative =>
        absurd (Int.natCast_nonneg magnitude) (Int.not_le.mpr (sign.mpr negative))
      rw [@saturate_toInt false number.natAbs (by simp only [Bool.false_eq_true, if_false]; omega),
        if_neg Bool.false_ne_true]
      omega

end Binary64
end Marreta
