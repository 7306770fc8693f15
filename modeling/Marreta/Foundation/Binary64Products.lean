import Marreta.Foundation.Binary64Integers

namespace Marreta
namespace Binary64

/-! Products of doubles with whole numbers, read back as integers, and exact decimals. -/

/-- `* factor as f64`, for a factor that is positive and below 2 ^ 53. -/
def timesNat (value : Binary64) (factor : Nat) : Binary64 :=
  match value.magnitude? with
  | some magnitude => withSign value.isNegative (ofRatio (magnitude * factor) (2 ^ 1074))
  | none => value

/-! ## The least integer -/

theorem saturate_eq_minValue_iff (negative : Bool) (magnitude : Nat) :
    saturate negative magnitude = Int64.minValue ↔ negative = true ∧ 2 ^ 63 ≤ magnitude := by
  have least : Int64.minValue.toInt = -2 ^ 63 := rfl
  rw [← Int64.toInt_inj, least]
  cases negative with
  | true =>
      by_cases large : 2 ^ 63 ≤ magnitude
      · rw [saturate, if_pos rfl, if_pos large]
        exact iff_of_true least ⟨rfl, large⟩
      · rw [@saturate_toInt true magnitude (by simp only [if_true]; omega), if_pos rfl]
        omega
  | false =>
      refine iff_of_false ?_ fun both => Bool.false_ne_true both.1
      by_cases large : 2 ^ 63 ≤ magnitude
      · rw [saturate, if_neg Bool.false_ne_true, if_pos large]
        decide
      · rw [@saturate_toInt false magnitude (by simp only [Bool.false_eq_true, if_false]; omega),
          if_neg Bool.false_ne_true]
        omega

/-- Half a unit, counted in least steps, is less than 2 ^ 63. -/
theorem half_lt_limit : (2 : Int) ^ 1073 < 2 ^ 63 * 2 ^ 1074 := by
  rw [← pow_add]
  apply pow_lt_pow_right₀
  · decide
  · decide

/-- Rounding to the least integer or below it. -/
theorem roundToInt64_eq_minValue_iff {value : Binary64} (finite : value.hasMagnitude) :
    value.roundToInt64 = Int64.minValue ↔
      2 ^ 63 * 2 ^ 1074 ≤ -value.units + 2 ^ 1073 := by
  have magnitude := magnitude?_of_finite finite
  rw [roundToInt64, magnitude]
  dsimp only
  rw [saturate_eq_minValue_iff, Nat.le_div_iff_mul_le (show 0 < 2 ^ 1074 by positivity), units,
    magnitude, Option.getD_some]
  generalize scaled value.exponentBits value.fractionBits = number
  have cast : ((2 ^ 63 * 2 ^ 1074 : Nat) : Int) = 2 ^ 63 * 2 ^ 1074 := by
    rw [Nat.cast_mul, Nat.cast_pow, Nat.cast_pow, Nat.cast_ofNat]
  have half : ((2 ^ 1073 : Nat) : Int) = 2 ^ 1073 := by
    rw [Nat.cast_pow, Nat.cast_ofNat]
  have large := half_lt_limit
  rw [← cast, ← half] at large ⊢
  generalize (2 ^ 63 * 2 ^ 1074 : Nat) = limit at large ⊢
  generalize (2 ^ 1073 : Nat) = rest at large ⊢
  cases value.isNegative with
  | true =>
      simp only [true_and, if_true]
      omega
  | false =>
      simp only [Bool.false_eq_true, false_and, if_false]
      exact iff_of_false id (by omega)

/-! ## Rounded products -/

theorem ofRatio_units {number : Nat} (positive : 0 < number) :
    ofRatio number (2 ^ 1074) =
      encode (roundedQuotient number (2 ^ excess number)) (excess number) := by
  have whole : number * 2 ^ 1074 / 2 ^ 1074 = number :=
    Nat.mul_div_cancel number (by positivity)
  have ratio (denominator : Nat) :
      roundedQuotient (number * 2 ^ 1074) (2 ^ 1074 * denominator) =
        roundedQuotient number denominator := by
    rw [Nat.mul_comm number, roundedQuotient_mul_left (Nat.two_pow_pos 1074)]
  unfold ofRatio
  simp only [Nat.ne_of_gt positive, if_false, whole, ratio, excess, -Nat.reducePow]

/-- Multiples of the least number are rounded to 53 bits, or to infinity. -/
theorem encodes_ofRatio_units (number : Nat) :
    Encodes (ofRatio number (2 ^ 1074)) (nearest number) ∨
      ofRatio number (2 ^ 1074) = infinity ∧ 2 ^ 2097 ≤ number := by
  rcases Nat.eq_zero_or_pos number with rfl | positive
  · have zero := @encodes_of_parts ⟨0⟩ 0 0 (by omega) (by omega) rfl
    exact .inl (by simpa [ofRatio, nearest, excess, roundedQuotient, scaled] using zero)
  rw [ofRatio_units positive]
  have upper := roundedQuotient_excess_le number
  by_cases small : excess number < 2045
  · refine .inl (encodes_encode upper ?_ small)
    by_cases large : 52 ≤ Nat.log2 number
    · exact .inl (le_roundedQuotient_excess large)
    · exact .inr (Nat.sub_eq_zero_of_le (by omega))
  · have log : 2097 ≤ Nat.log2 number := by
      rw [excess] at small
      omega
    have lower := le_roundedQuotient_excess (Nat.le_trans (by omega) log)
    have size (exponent : Nat) (least : exponent ≤ Nat.log2 number) : 2 ^ exponent ≤ number :=
      (Nat.le_log2 (Nat.ne_of_gt positive)).mp least
    rw [encode]
    split_ifs with full low
    · refine .inr ⟨?_, size _ log⟩
      rw [encode.encodeNormal, if_pos (by omega)]
    · omega
    · by_cases last : excess number < 2046
      · exact .inl (encodes_encodeNormal lower (by omega) last)
      · refine .inr ⟨?_, size _ log⟩
        rw [encode.encodeNormal, if_pos (by omega)]

/-- The number half a step below 2 ^ 63 is rounded up to it, and the one before it is not. -/
theorem nearest_half_step :
    nearest ((2 ^ 63 - 2 ^ 9) * 2 ^ 1074) = 2 ^ 63 * 2 ^ 1074 ∧
      nearest ((2 ^ 63 - 2 ^ 9) * 2 ^ 1074 - 1) + 2 ^ 1073 < 2 ^ 63 * 2 ^ 1074 := by
  decide +kernel

/-- Half a step below 2 ^ 63, numbers are rounded up to it. -/
theorem reaches_iff (number : Nat) :
    2 ^ 63 * 2 ^ 1074 ≤ nearest number + 2 ^ 1073 ↔ (2 ^ 63 - 2 ^ 9) * 2 ^ 1074 ≤ number := by
  have reached := nearest_half_step.1
  have missed := nearest_half_step.2
  constructor
  · intro reaches
    by_contra below
    have rounded := nearest_mono (Nat.le_sub_one_of_lt (Nat.not_le.mp below))
    exact absurd reaches (Nat.not_le.mpr (Nat.lt_of_le_of_lt (Nat.add_le_add_right rounded _)
      missed))
  · intro large
    have rounded := nearest_mono large
    rw [reached] at rounded
    exact Nat.le_add_right_of_le rounded

/-- The product is beyond the least integer, for a factor that is positive. -/
def BelowRange (value : Binary64) (factor : Nat) : Prop :=
  value.isNegative = true ∧
    match value.magnitude? with
    | some magnitude => (2 ^ 63 - 2 ^ 9) * 2 ^ 1074 ≤ magnitude * factor
    | none => value.isNan = false

theorem roundToInt64_timesNat_iff (value : Binary64) (factor : Nat) :
    (value.timesNat factor).roundToInt64 = Int64.minValue ↔ value.BelowRange factor := by
  rw [timesNat, BelowRange]
  cases known : value.magnitude? with
  | none =>
      dsimp only
      rw [roundToInt64, known]
      dsimp only
      rw [saturateSpecial]
      cases value.isNan with
      | true =>
          rw [if_pos rfl]
          exact iff_of_false (by decide) fun both => Bool.false_ne_true both.2.symm
      | false =>
          rw [if_neg Bool.false_ne_true, saturate_eq_minValue_iff]
          exact and_congr_right fun _ => iff_of_true (Nat.le_refl _) rfl
  | some magnitude =>
      dsimp only
      rcases encodes_ofRatio_units (magnitude * factor) with encodes | ⟨infinite, large⟩
      · obtain ⟨finite, units⟩ := encodes.withSign value.isNegative
        rw [roundToInt64_eq_minValue_iff finite, units, ← reaches_iff]
        have large := half_lt_limit
        have sum : ((2 ^ 63 * 2 ^ 1074 : Nat) : Int) ≤
            ((nearest (magnitude * factor) + 2 ^ 1073 : Nat) : Int) ↔
            2 ^ 63 * 2 ^ 1074 ≤ (nearest (magnitude * factor) : Int) + 2 ^ 1073 := by
          rw [Nat.cast_mul, Nat.cast_pow, Nat.cast_pow, Nat.cast_add, Nat.cast_pow,
            Nat.cast_ofNat]
        rw [← Int.ofNat_le, sum]
        generalize (2 : Int) ^ 63 * 2 ^ 1074 = limit at large ⊢
        generalize (2 : Int) ^ 1073 = rest at large ⊢
        cases value.isNegative with
        | true =>
            simp only [true_and, if_true]
            omega
        | false =>
            simp only [Bool.false_eq_true, false_and, if_false, iff_false]
            omega
      · have step : (2 ^ 63 - 2 ^ 9) * 2 ^ 1074 ≤ 2 ^ 2097 :=
          calc (2 ^ 63 - 2 ^ 9) * 2 ^ 1074
            _ ≤ 2 ^ 63 * 2 ^ 1074 := Nat.mul_le_mul_right _ (Nat.sub_le _ _)
            _ = 2 ^ (63 + 1074) := (pow_add 2 63 1074).symm
            _ ≤ 2 ^ 2097 := pow_le_pow_right₀ (by decide) (by decide)
        rw [infinite, and_iff_left (Nat.le_trans step large)]
        cases value.isNegative with
        | true => decide
        | false => decide

/-! ## Decimals -/

theorem Encodes.unique {value other : Binary64} {magnitude : Nat}
    (encodes : Encodes value magnitude) (alike : Encodes other magnitude) : value = other := by
  have same : scaled value.exponentBits value.fractionBits =
      scaled other.exponentBits other.fractionBits := by
    have both := encodes.magnitude.trans alike.magnitude.symm
    rw [magnitude?_of_finite encodes.finite, magnitude?_of_finite alike.finite] at both
    exact Option.some.inj both
  obtain ⟨exponents, fractions⟩ :=
    scaled_injective value.fractionBits_lt other.fractionBits_lt same
  have positive {number : Binary64} (small : number.bits.toNat < 2 ^ 63) :
      number.isNegative = false := by
    rw [isNegative, decide_eq_false_iff_not]
    omega
  have bits : value.bits.toNat = other.bits.toNat := by
    rw [value.bits_eq, other.bits_eq, positive encodes.positive, positive alike.positive,
      exponents, fractions]
  cases value
  cases other
  exact congrArg _ (UInt64.toNat_inj.mp bits)

/-- The number of units of a finite double is read as that double. -/
theorem ofRatio_scaled {exponent fraction : Nat} (small : exponent < 2047)
    (bounded : fraction < 2 ^ 52) :
    Encodes (ofRatio (scaled exponent fraction) (2 ^ 1074)) (scaled exponent fraction) := by
  cases exponent with
  | zero =>
      have number : scaled 0 fraction = fraction := rfl
      rw [number]
      rcases encodes_ofRatio_units fraction with encodes | ⟨-, large⟩
      · have whole : nearest fraction = fraction :=
          @nearest_eq_self fraction fraction 0 (Nat.lt_trans bounded (by omega)) (by simp)
        rwa [whole] at encodes
      · have less : fraction < 2 ^ 2097 :=
          Nat.lt_of_lt_of_le bounded (pow_le_pow_right₀ (by decide) (by decide))
        exact absurd large (Nat.not_le_of_lt less)
  | succ exponent =>
      have number : scaled (exponent + 1) fraction = (2 ^ 52 + fraction) * 2 ^ exponent := by
        rw [scaled, if_neg (by omega), Nat.add_sub_cancel]
      have positive : 0 < (2 ^ 52 + fraction) * 2 ^ exponent :=
        Nat.mul_pos (by omega) (Nat.two_pow_pos _)
      have shift : excess ((2 ^ 52 + fraction) * 2 ^ exponent) = exponent := by
        have log : Nat.log2 ((2 ^ 52 + fraction) * 2 ^ exponent) = 52 + exponent := by
          apply (Nat.log2_eq_iff (Nat.ne_of_gt positive)).mpr
          rw [Nat.add_right_comm, Nat.pow_add, Nat.pow_add]
          exact ⟨Nat.mul_le_mul_right _ (Nat.le_add_right _ _),
            Nat.mul_lt_mul_of_pos_right (by omega) (Nat.two_pow_pos _)⟩
        rw [excess, log]
        omega
      rw [number, ofRatio_units positive, shift, roundedQuotient_mul _ _ (Nat.two_pow_pos _)]
      rw [encode, if_neg (by omega), if_neg (by omega)]
      exact encodes_encodeNormal (by omega) (by omega) (by omega)

/-- Every finite double without a sign is a decimal. -/
theorem exists_decimal {value : Binary64} (finite : value.hasMagnitude)
    (positive : value.isNegative = false) :
    ∃ digits places, 0 < places ∧ ofDecimal digits places = value := by
  have own : Encodes value (scaled value.exponentBits value.fractionBits) := by
    refine ⟨finite, ?_, magnitude?_of_finite finite⟩
    rw [isNegative, decide_eq_false_iff_not] at positive
    omega
  have small : value.exponentBits < 2047 := by
    rw [hasMagnitude, decide_eq_true_iff] at finite
    have bound : value.exponentBits < 2048 := Nat.mod_lt _ (by omega)
    omega
  refine ⟨5 ^ 1074 * scaled value.exponentBits value.fractionBits, 1074, by omega, ?_⟩
  have ten : (10 ^ 1074 : Nat) = 5 ^ 1074 * 2 ^ 1074 := by
    rw [← Nat.mul_pow]
  rw [ofDecimal, ten, ofRatio_mul_left (Nat.pow_pos (by omega))]
  exact (ofRatio_scaled small value.fractionBits_lt).unique own

theorem isNegative_encode {mantissa exponent : Nat} (bounded : mantissa ≤ 2 ^ 53) :
    (encode mantissa exponent).isNegative = false := by
  have normal {mantissa exponent : Nat} (bounded : mantissa < 2 ^ 53) :
      (encode.encodeNormal mantissa exponent).isNegative = false := by
    rw [encode.encodeNormal]
    split
    · decide
    · rw [isNegative, decide_eq_false_iff_not,
        UInt64.toNat_ofNat_of_lt' (by rw [UInt64.size]; omega)]
      omega
  rw [encode]
  split_ifs with full low
  · exact normal (by omega)
  · rw [isNegative, decide_eq_false_iff_not, UInt64.toNat_ofNat_of_lt' (by rw [UInt64.size]; omega)]
    omega
  · exact normal (by omega)

theorem isNegative_ofRatio (numerator : Nat) {denominator : Nat} (positive : 0 < denominator) :
    (ofRatio numerator denominator).isNegative = false := by
  rw [ofRatio]
  split
  · decide
  · apply isNegative_encode
    have bound : numerator * 2 ^ 1074 ≤
        2 ^ 53 * (denominator * 2 ^ (Nat.log2 (numerator * 2 ^ 1074 / denominator) - 52)) := by
      have below := (Nat.div_lt_iff_lt_mul positive).mp
        (lt_two_pow_excess (numerator * 2 ^ 1074 / denominator))
      rw [excess, Nat.mul_assoc, Nat.mul_comm _ denominator] at below
      exact Nat.le_of_lt below
    have rounded := roundedQuotient_mono
      (denominator * 2 ^ (Nat.log2 (numerator * 2 ^ 1074 / denominator) - 52)) bound
    rwa [roundedQuotient_mul _ _ (Nat.mul_pos positive (Nat.two_pow_pos _))] at rounded

/-- A finite double is a number without a sign, and perhaps a sign. -/
theorem exists_withSign {value : Binary64} (finite : value.hasMagnitude) :
    ∃ magnitude : Binary64, magnitude.hasMagnitude ∧ magnitude.isNegative = false ∧
      magnitude.withSign value.isNegative = value := by
  cases sign : value.isNegative with
  | false => exact ⟨value, finite, sign, rfl⟩
  | true =>
      have large : 2 ^ 63 ≤ value.bits.toNat := by
        rwa [isNegative, decide_eq_true_iff] at sign
      have bounded := value.bits.toNat_lt
      have bits : (UInt64.ofNat (value.bits.toNat - 2 ^ 63)).toNat =
          value.bits.toNat - 2 ^ 63 := by
        rw [UInt64.toNat_ofNat_of_lt' (by rw [UInt64.size]; omega)]
      refine ⟨⟨UInt64.ofNat (value.bits.toNat - 2 ^ 63)⟩, ?_, ?_, ?_⟩
      · rw [hasMagnitude, exponentBits, decide_eq_true_iff] at finite ⊢
        rw [bits]
        omega
      · rw [isNegative, decide_eq_false_iff_not, bits]
        omega
      · have sum := Nat.two_pow_add_eq_or_of_lt (show value.bits.toNat - 2 ^ 63 < 2 ^ 63 by omega) 1
        rw [Nat.mul_one] at sum
        cases value
        rw [withSign, if_pos rfl, mk.injEq, ← UInt64.toNat_inj, UInt64.toNat_or, bits, Nat.or_comm]
        change 2 ^ 63 ||| _ = _
        rw [← sum, Nat.add_sub_cancel' large]

end Binary64
end Marreta
