import Marreta.Foundation.Binary64
import Mathlib

namespace Marreta

/-! The numbers that the bit patterns stand for.

Every finite number is a whole multiple of the least one, so finite numbers are compared
as integers.  Two of them are equal in the sense of the standard exactly when they stand
for the same number: the two zeros are the only patterns that share one. -/

namespace Binary64

/-- Neither infinite nor NaN. -/
def hasMagnitude (value : Binary64) : Bool :=
  value.exponentBits ≠ 2047

def isZero (value : Binary64) : Bool :=
  value.bits = 0 || value.bits = 0x8000000000000000

/-- `==`: no NaN is equal to anything. -/
def equals (left right : Binary64) : Bool :=
  !left.isNan && !right.isNan && (left.bits = right.bits || (left.isZero && right.isZero))

/-- The number times 2 ^ 1074, for finite numbers. -/
def units (value : Binary64) : Int :=
  if value.isNegative then -(value.magnitude?.getD 0 : Int) else value.magnitude?.getD 0

/-! ## Patterns and numbers -/

/-- The absolute value that an exponent and a fraction stand for. -/
def scaled (exponent fraction : Nat) : Nat :=
  if exponent = 0 then fraction else (2 ^ 52 + fraction) * 2 ^ (exponent - 1)

theorem fractionBits_lt (value : Binary64) : value.fractionBits < 2 ^ 52 := by
  rw [fractionBits]
  omega

theorem bits_eq (value : Binary64) :
    value.bits.toNat = (if value.isNegative then 2 ^ 63 else 0) + value.exponentBits * 2 ^ 52 +
      value.fractionBits := by
  have bounded := value.bits.toNat_lt
  simp only [isNegative, exponentBits, fractionBits, decide_eq_true_eq]
  split <;> omega

theorem magnitude?_of_finite {value : Binary64} (finite : value.hasMagnitude) :
    value.magnitude? = some (scaled value.exponentBits value.fractionBits) := by
  rw [hasMagnitude, decide_eq_true_iff] at finite
  rw [magnitude?, if_neg finite, scaled]
  split <;> rfl

theorem scaled_lt {exponent fraction : Nat} (bounded : fraction < 2 ^ 52) :
    scaled exponent fraction < 2 ^ 52 * 2 ^ exponent := by
  cases exponent with
  | zero => simpa [scaled] using bounded
  | succ exponent =>
      rw [scaled, if_neg (by omega), Nat.add_sub_cancel, Nat.pow_succ 2 exponent]
      have positive := Nat.two_pow_pos exponent
      nlinarith

theorem le_scaled {exponent fraction : Nat} :
    2 ^ 52 * 2 ^ exponent ≤ scaled (exponent + 1) fraction := by
  rw [scaled, if_neg (by omega), Nat.add_sub_cancel]
  exact Nat.mul_le_mul_right _ (Nat.le_add_right _ _)

theorem scaled_lt_of_lt {exponent other fraction rest : Nat} (bounded : fraction < 2 ^ 52)
    (less : exponent < other) : scaled exponent fraction < scaled other rest := by
  obtain ⟨other, rfl⟩ : ∃ before, other = before + 1 := ⟨other - 1, by omega⟩
  calc scaled exponent fraction
      < 2 ^ 52 * 2 ^ exponent := scaled_lt bounded
    _ ≤ 2 ^ 52 * 2 ^ other := Nat.mul_le_mul_left _ (Nat.pow_le_pow_right (by omega) (by omega))
    _ ≤ scaled (other + 1) rest := le_scaled

theorem scaled_injective {exponent other fraction rest : Nat} (bounded : fraction < 2 ^ 52)
    (restBounded : rest < 2 ^ 52) (same : scaled exponent fraction = scaled other rest) :
    exponent = other ∧ fraction = rest := by
  rcases Nat.lt_trichotomy exponent other with less | rfl | greater
  · exact absurd same (Nat.ne_of_lt (scaled_lt_of_lt bounded less))
  · refine ⟨rfl, ?_⟩
    rw [scaled, scaled] at same
    split at same
    case isTrue => exact same
    case isFalse =>
        have factors := Nat.mul_right_cancel (Nat.two_pow_pos _) same
        omega
  · exact absurd same.symm (Nat.ne_of_lt (scaled_lt_of_lt restBounded greater))

theorem scaled_eq_zero {exponent fraction : Nat} :
    scaled exponent fraction = 0 ↔ exponent = 0 ∧ fraction = 0 := by
  constructor
  · intro zero
    cases exponent with
    | zero => exact ⟨rfl, by simpa [scaled] using zero⟩
    | succ exponent =>
        have positive := @le_scaled exponent fraction
        have factor := Nat.two_pow_pos exponent
        omega
  · rintro ⟨rfl, rfl⟩
    rfl

/-! ## Equality -/

theorem isNan_of_finite {value : Binary64} (finite : value.hasMagnitude) : value.isNan = false := by
  rw [hasMagnitude, decide_eq_true_iff] at finite
  simp [isNan, finite]

theorem isZero_iff (value : Binary64) :
    value.isZero ↔ value.exponentBits = 0 ∧ value.fractionBits = 0 := by
  have parts := bits_eq value
  rw [isZero, Bool.or_eq_true, decide_eq_true_iff, decide_eq_true_iff, ← UInt64.toNat_inj,
    ← UInt64.toNat_inj]
  change value.bits.toNat = 0 ∨ value.bits.toNat = 2 ^ 63 ↔ _
  have bounded := value.bits.toNat_lt
  have fraction := value.fractionBits_lt
  have exponent : value.exponentBits < 2048 := by
    rw [exponentBits]
    omega
  split at parts <;> omega

/-- Finite numbers are equal exactly when they stand for the same number. -/
theorem equals_iff_units {left right : Binary64} (leftFinite : left.hasMagnitude)
    (rightFinite : right.hasMagnitude) : left.equals right ↔ left.units = right.units := by
  rw [equals, isNan_of_finite leftFinite, isNan_of_finite rightFinite]
  simp only [Bool.not_false, Bool.true_and, Bool.or_eq_true, Bool.and_eq_true, decide_eq_true_iff]
  rw [units, units, magnitude?_of_finite leftFinite, magnitude?_of_finite rightFinite]
  simp only [Option.getD_some]
  constructor
  · rintro (same | ⟨leftZero, rightZero⟩)
    · obtain rfl : left = right := by
        cases left
        cases right
        cases same
        rfl
      rfl
    · have leftScaled := (scaled_eq_zero).mpr ((isZero_iff left).mp leftZero)
      have rightScaled := (scaled_eq_zero).mpr ((isZero_iff right).mp rightZero)
      simp [leftScaled, rightScaled]
  · intro same
    have magnitudes : scaled left.exponentBits left.fractionBits =
        scaled right.exponentBits right.fractionBits := by
      split at same <;> split at same <;> omega
    by_cases zero : scaled left.exponentBits left.fractionBits = 0
    · refine .inr ⟨(isZero_iff left).mpr ((scaled_eq_zero).mp zero), ?_⟩
      exact (isZero_iff right).mpr ((scaled_eq_zero).mp (magnitudes ▸ zero))
    · have signs : left.isNegative = right.isNegative := by
        cases leftSign : left.isNegative <;> cases rightSign : right.isNegative <;>
          simp only [leftSign, rightSign, if_true, if_false, Bool.false_eq_true] at same ⊢ <;>
          omega
      obtain ⟨exponents, fractions⟩ :=
        scaled_injective left.fractionBits_lt right.fractionBits_lt magnitudes
      refine .inl (UInt64.toNat_inj.mp ?_)
      rw [bits_eq left, bits_eq right, signs, exponents, fractions]

/-! ## Rounding -/

theorem roundedQuotient_mono {first second : Nat} (denominator : Nat) (ordered : first ≤ second) :
    roundedQuotient first denominator ≤ roundedQuotient second denominator := by
  rcases Nat.eq_zero_or_pos denominator with rfl | positive
  · simp only [roundedQuotient, Nat.div_zero, Nat.mod_zero]
    split_ifs <;> omega
  have quotients := Nat.div_le_div_right (c := denominator) ordered
  have firstParts := Nat.div_add_mod first denominator
  have secondParts := Nat.div_add_mod second denominator
  have firstRest := Nat.mod_lt first positive
  have secondRest := Nat.mod_lt second positive
  rcases Nat.eq_or_lt_of_le quotients with same | less
  · rw [same] at firstParts
    simp only [roundedQuotient, same]
    split_ifs <;> omega
  · simp only [roundedQuotient]
    split_ifs <;> omega

theorem roundedQuotient_mul (quotient denominator : Nat) (positive : 0 < denominator) :
    roundedQuotient (quotient * denominator) denominator = quotient := by
  rw [roundedQuotient, Nat.mul_div_cancel _ positive, Nat.mul_mod_left]
  simp [positive]

/-- The bits below the 53 that are kept. -/
def excess (number : Nat) : Nat :=
  Nat.log2 number - 52

/-- The nearest number with 53 bits, ties to even. -/
def nearest (number : Nat) : Nat :=
  roundedQuotient number (2 ^ excess number) * 2 ^ excess number

theorem lt_two_pow_excess (number : Nat) : number < 2 ^ 53 * 2 ^ excess number := by
  calc number
      < 2 ^ (Nat.log2 number + 1) := Nat.lt_log2_self
    _ ≤ 2 ^ (53 + excess number) := Nat.pow_le_pow_right (by omega) (by rw [excess]; omega)
    _ = 2 ^ 53 * 2 ^ excess number := Nat.pow_add 2 53 _

theorem two_pow_excess_le {number : Nat} (large : 52 ≤ Nat.log2 number) :
    2 ^ 52 * 2 ^ excess number ≤ number := by
  have positive : number ≠ 0 := by
    rintro rfl
    simp at large
  calc 2 ^ 52 * 2 ^ excess number
      = 2 ^ Nat.log2 number := by rw [← Nat.pow_add, excess, Nat.add_sub_cancel' large]
    _ ≤ number := Nat.log2_self_le positive

theorem roundedQuotient_excess_le (number : Nat) :
    roundedQuotient number (2 ^ excess number) ≤ 2 ^ 53 := by
  have bound := roundedQuotient_mono (2 ^ excess number) (Nat.le_of_lt (lt_two_pow_excess number))
  rwa [roundedQuotient_mul _ _ (Nat.two_pow_pos _)] at bound

theorem le_roundedQuotient_excess {number : Nat} (large : 52 ≤ Nat.log2 number) :
    2 ^ 52 ≤ roundedQuotient number (2 ^ excess number) := by
  have bound := roundedQuotient_mono (2 ^ excess number) (two_pow_excess_le large)
  rwa [roundedQuotient_mul _ _ (Nat.two_pow_pos _)] at bound

theorem nearest_eq_self {number mantissa shift : Nat} (bounded : mantissa < 2 ^ 53)
    (same : number = mantissa * 2 ^ shift) : nearest number = number := by
  rcases Nat.eq_zero_or_pos mantissa with rfl | positive
  · subst same
    simp [nearest, excess, roundedQuotient]
  have small : excess number ≤ shift := by
    have upper : number < 2 ^ (53 + shift) := by
      rw [same, Nat.pow_add]
      exact Nat.mul_lt_mul_of_pos_right bounded (Nat.two_pow_pos _)
    have nonzero : number ≠ 0 := by
      rw [same]
      exact Nat.ne_of_gt (Nat.mul_pos positive (Nat.two_pow_pos _))
    have log := (Nat.log2_lt nonzero).mpr upper
    rw [excess]
    omega
  have multiple : number = mantissa * 2 ^ (shift - excess number) * 2 ^ excess number := by
    rw [Nat.mul_assoc, ← Nat.pow_add, Nat.sub_add_cancel small]
    exact same
  have quotient := roundedQuotient_mul (mantissa * 2 ^ (shift - excess number))
    (2 ^ excess number) (Nat.two_pow_pos _)
  rw [← multiple] at quotient
  rw [nearest, quotient, ← multiple]

theorem excess_mono {first second : Nat} (ordered : first ≤ second) :
    excess first ≤ excess second := by
  rcases Nat.eq_zero_or_pos first with rfl | positive
  · simp [excess]
  have lower := Nat.log2_self_le (Nat.ne_of_gt positive)
  have logs : Nat.log2 first ≤ Nat.log2 second :=
    (Nat.le_log2 (Nat.ne_of_gt (Nat.lt_of_lt_of_le positive ordered))).mpr (lower.trans ordered)
  rw [excess, excess]
  omega

theorem nearest_mono {first second : Nat} (ordered : first ≤ second) :
    nearest first ≤ nearest second := by
  rcases Nat.eq_or_lt_of_le (excess_mono ordered) with same | less
  · rw [nearest, nearest, same]
    exact Nat.mul_le_mul_right _ (roundedQuotient_mono _ ordered)
  have large : 52 ≤ Nat.log2 second := by
    rw [excess, excess] at less
    omega
  calc nearest first
      ≤ 2 ^ 53 * 2 ^ excess first := Nat.mul_le_mul_right _ (roundedQuotient_excess_le first)
    _ = 2 ^ 52 * 2 ^ (excess first + 1) := by rw [Nat.pow_succ 2 (excess first)]; ring
    _ ≤ 2 ^ 52 * 2 ^ excess second :=
        Nat.mul_le_mul_left _ (Nat.pow_le_pow_right (by omega) less)
    _ ≤ nearest second := Nat.mul_le_mul_right _ (le_roundedQuotient_excess large)

/-! ## Patterns of rounded numbers -/

/-- A pattern of a number that is not negative. -/
structure Encodes (value : Binary64) (magnitude : Nat) : Prop where
  finite : value.hasMagnitude
  positive : value.bits.toNat < 2 ^ 63
  magnitude : value.magnitude? = some magnitude

theorem encodes_of_parts {value : Binary64} {exponent fraction : Nat} (small : exponent < 2047)
    (bounded : fraction < 2 ^ 52) (bits : value.bits.toNat = exponent * 2 ^ 52 + fraction) :
    Encodes value (scaled exponent fraction) := by
  have exponents : value.exponentBits = exponent := by
    rw [exponentBits]
    omega
  have fractions : value.fractionBits = fraction := by
    rw [fractionBits]
    omega
  have finite : value.hasMagnitude := by
    rw [hasMagnitude, decide_eq_true_iff, exponents]
    omega
  refine ⟨finite, by omega, ?_⟩
  rw [magnitude?_of_finite finite, exponents, fractions]

theorem encodes_encodeNormal {mantissa exponent : Nat} (lower : 2 ^ 52 ≤ mantissa)
    (upper : mantissa < 2 ^ 53) (small : exponent < 2046) :
    Encodes (encode.encodeNormal mantissa exponent) (mantissa * 2 ^ exponent) := by
  have parts : Encodes (encode.encodeNormal mantissa exponent)
      (scaled (exponent + 1) (mantissa - 2 ^ 52)) := by
    apply encodes_of_parts (by omega) (by omega)
    rw [encode.encodeNormal, if_neg (by omega), UInt64.toNat_ofNat_of_lt']
    rw [UInt64.size]
    omega
  rwa [scaled, if_neg (by omega), Nat.add_sub_cancel, Nat.add_sub_cancel' lower] at parts

theorem encodes_encode {mantissa exponent : Nat} (upper : mantissa ≤ 2 ^ 53)
    (lower : 2 ^ 52 ≤ mantissa ∨ exponent = 0) (small : exponent < 2045) :
    Encodes (encode mantissa exponent) (mantissa * 2 ^ exponent) := by
  rw [encode]
  split_ifs with full low
  · have carried := @encodes_encodeNormal (2 ^ 52) (exponent + 1) (by omega) (by omega) (by omega)
    rwa [Nat.pow_succ 2 exponent, ← Nat.mul_assoc, Nat.mul_right_comm,
      show 2 ^ 52 * 2 = mantissa by omega] at carried
  · obtain rfl : exponent = 0 := by omega
    have parts : Encodes ⟨UInt64.ofNat mantissa⟩ (scaled 0 mantissa) := by
      apply encodes_of_parts (by omega) low
      rw [UInt64.toNat_ofNat_of_lt' (by rw [UInt64.size]; omega)]
      omega
    simpa [scaled] using parts
  · exact encodes_encodeNormal (by omega) (by omega) (by omega)

theorem le_log2_mul {number : Nat} (positive : 0 < number) (shift : Nat) :
    shift ≤ Nat.log2 (number * 2 ^ shift) := by
  apply (Nat.le_log2 (Nat.ne_of_gt (Nat.mul_pos positive (Nat.two_pow_pos _)))).mpr
  exact Nat.le_mul_of_pos_left _ positive

theorem log2_mul_lt {number : Nat} (positive : 0 < number) (small : number < 2 ^ 64)
    (shift : Nat) : Nat.log2 (number * 2 ^ shift) < 64 + shift := by
  apply (Nat.log2_lt (Nat.ne_of_gt (Nat.mul_pos positive (Nat.two_pow_pos _)))).mpr
  rw [Nat.pow_add]
  exact Nat.mul_lt_mul_of_pos_right small (Nat.two_pow_pos _)

theorem ofRatio_one {number : Nat} (positive : 0 < number) :
    ofRatio number 1 =
      encode (roundedQuotient (number * 2 ^ 1074) (2 ^ excess (number * 2 ^ 1074)))
        (excess (number * 2 ^ 1074)) := by
  unfold ofRatio
  simp only [Nat.ne_of_gt positive, if_false, Nat.div_one, Nat.one_mul, excess, -Nat.reducePow]

/-- Whole numbers below 2 ^ 64 are rounded to 53 bits. -/
theorem encodes_ofRatio {number : Nat} (small : number < 2 ^ 64) :
    Encodes (ofRatio number 1) (nearest (number * 2 ^ 1074)) := by
  rcases Nat.eq_zero_or_pos number with rfl | positive
  · have zero := @encodes_of_parts ⟨0⟩ 0 0 (by omega) (by omega) rfl
    simpa [ofRatio, nearest, excess, roundedQuotient, scaled, -Nat.reducePow] using zero
  simp only [ofRatio_one positive, -Nat.reducePow]
  have lower := le_log2_mul positive 1074
  have upper := log2_mul_lt positive small 1074
  apply encodes_encode (roundedQuotient_excess_le _)
  · exact .inl (le_roundedQuotient_excess (by omega))
  · rw [excess]
    omega

/-! ## Integers -/

/-- `as f64`. -/
def ofInt64 (number : Int64) : Binary64 :=
  withSign (number < 0) (ofRatio number.toInt.natAbs 1)

theorem Encodes.withSign {value : Binary64} {magnitude : Nat} (encodes : Encodes value magnitude)
    (negative : Bool) :
    (Binary64.withSign negative value).hasMagnitude ∧
      (Binary64.withSign negative value).units =
        if negative then -(magnitude : Int) else magnitude := by
  have sign : value.isNegative = false := by
    rw [isNegative, decide_eq_false_iff_not]
    have positive := encodes.positive
    omega
  cases negative with
  | false =>
      refine ⟨encodes.finite, ?_⟩
      rw [Binary64.withSign, if_neg (by simp), units, sign, encodes.magnitude]
      rfl
  | true =>
      have bits : (Binary64.withSign true value).bits.toNat = value.bits.toNat + 2 ^ 63 := by
        have sum := Nat.two_pow_add_eq_or_of_lt encodes.positive 1
        rw [Nat.mul_one] at sum
        rw [Binary64.withSign, if_pos rfl, UInt64.toNat_or, Nat.or_comm, Nat.add_comm]
        exact sum.symm
      have positive := encodes.positive
      have exponents : (Binary64.withSign true value).exponentBits = value.exponentBits := by
        rw [exponentBits, exponentBits]
        omega
      have fractions : (Binary64.withSign true value).fractionBits = value.fractionBits := by
        rw [fractionBits, fractionBits]
        omega
      have negative : (Binary64.withSign true value).isNegative = true := by
        rw [isNegative, decide_eq_true_iff]
        omega
      have finite : (Binary64.withSign true value).hasMagnitude := by
        rw [hasMagnitude, exponents]
        exact encodes.finite
      refine ⟨finite, ?_⟩
      have magnitude := encodes.magnitude
      rw [magnitude?_of_finite encodes.finite] at magnitude
      rw [units, negative, magnitude?_of_finite finite, exponents, fractions, magnitude]
      rfl

theorem natAbs_toInt_lt (number : Int64) : number.toInt.natAbs < 2 ^ 64 := by
  have lower := number.le_toInt
  have upper := number.toInt_lt
  omega

theorem hasMagnitude_ofInt64 (number : Int64) : (ofInt64 number).hasMagnitude :=
  ((encodes_ofRatio (natAbs_toInt_lt number)).withSign _).1

theorem units_ofInt64 (number : Int64) :
    (ofInt64 number).units =
      if number.toInt < 0 then -(nearest (number.toInt.natAbs * 2 ^ 1074) : Int)
      else nearest (number.toInt.natAbs * 2 ^ 1074) := by
  have signed := ((encodes_ofRatio (natAbs_toInt_lt number)).withSign (number < 0)).2
  have sign : (number < 0) = (number.toInt < 0) := by
    rw [Int64.lt_iff_toInt_lt]
    rfl
  simp only [sign, decide_eq_true_eq] at signed
  simp only [ofInt64, sign]
  exact signed

/-- Larger integers are not rounded to smaller numbers. -/
theorem units_ofInt64_mono {first second : Int64} (ordered : first.toInt ≤ second.toInt) :
    (ofInt64 first).units ≤ (ofInt64 second).units := by
  simp only [units_ofInt64, -Nat.reducePow]
  have rounded {small large : Int} (smaller : small.natAbs ≤ large.natAbs) :
      (nearest (small.natAbs * 2 ^ 1074) : Int) ≤ nearest (large.natAbs * 2 ^ 1074) :=
    Int.ofNat_le.mpr (nearest_mono (Nat.mul_le_mul_right _ smaller))
  split_ifs with firstNegative secondNegative secondNegative
  · exact Int.neg_le_neg (rounded (by omega))
  · exact Int.le_trans (Int.neg_nonpos_of_nonneg (Int.natCast_nonneg _)) (Int.natCast_nonneg _)
  · omega
  · exact rounded (by omega)

end Binary64
end Marreta
