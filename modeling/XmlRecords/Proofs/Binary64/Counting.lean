import XmlRecords.Proofs.Binary64.Whole

/-! # Counting with doubles

Doubles are compared by what their bits stand for. The comparison is symmetric, and against a number
that is positive it is the equality of doubles. The natural numbers below `2 ^ 53` have doubles of
their own, which no other natural number is rounded to, so that they can be counted with
(`Binary64.ofNat_beq_ofNat_iff`).
-/

namespace XmlRecords

namespace Binary64

open Float.Model

section Comparing

theorem beq_iff {first second : Float} :
    (first == second) = true ↔
      first.toModel.unpack ≠ .notANumber ∧ second.toModel.unpack ≠ .notANumber ∧
        (first.toModel.unpack = second.toModel.unpack ∨
          first.toModel.unpack = .zero .positive ∧ second.toModel.unpack = .zero .negative ∨
          first.toModel.unpack = .zero .negative ∧ second.toModel.unpack = .zero .positive) :=
  UnpackedFloat.beq_iff_ne_notANumber_and_eq _ _

theorem beq_comm (first second : Float) : (first == second) = (second == first) := by
  rw [Bool.eq_iff_iff, beq_iff, beq_iff]
  constructor <;> rintro ⟨left, right, same | ⟨positive, negative⟩ | ⟨negative, positive⟩⟩
  · exact ⟨right, left, .inl same.symm⟩
  · exact ⟨right, left, .inr (.inr ⟨negative, positive⟩)⟩
  · exact ⟨right, left, .inr (.inl ⟨positive, negative⟩)⟩
  · exact ⟨right, left, .inl same.symm⟩
  · exact ⟨right, left, .inr (.inr ⟨negative, positive⟩)⟩
  · exact ⟨right, left, .inr (.inl ⟨positive, negative⟩)⟩

/-- A double is what its bits stand for. -/
theorem eq_of_unpack_eq {first second : Float}
    (same : first.toModel.unpack = second.toModel.unpack) : first = second := by
  rw [← ofBits_toBits first, ← ofBits_toBits second]
  exact congrArg (fun unpacked => Float.ofModel (Float.Model.pack unpacked)) same

/-- The double is a number, and not zero. -/
structure IsProper (double : Float) : Prop where
  number : double.toModel.unpack ≠ .notANumber
  nonzero : ∀ sign, double.toModel.unpack ≠ .zero sign

namespace IsProper

variable {first second : Float}

theorem beq_iff_eq (proper : IsProper second) : (first == second) = true ↔ first = second := by
  rw [beq_iff]
  constructor
  · rintro ⟨-, -, same | ⟨-, zero⟩ | ⟨-, zero⟩⟩
    · exact eq_of_unpack_eq same
    · exact absurd zero (proper.nonzero _)
    · exact absurd zero (proper.nonzero _)
  · rintro rfl
    exact ⟨proper.number, proper.number, .inl rfl⟩

theorem isNaN_eq_false (proper : IsProper first) : first.isNaN = false := by
  change first.toModel.unpack.isNaN = false
  have number := proper.number
  cases unpacked : first.toModel.unpack with
  | notANumber => exact absurd unpacked number
  | _ => rfl

theorem bne_zero (proper : IsProper first) : (first != 0) = true := by
  have zero : (0 : Float).toModel.unpack = .zero .positive := rfl
  rw [bne, beq_comm, Bool.not_eq_true', Bool.eq_false_iff, ne_eq, proper.beq_iff_eq]
  rintro rfl
  exact proper.nonzero _ zero

end IsProper

end Comparing

section Bits

variable {bits : Nat}

theorem infinityBits_eq : infinityBits = 2047 * 2 ^ 52 :=
  rfl

theorem toNat_unpackExponent (bound : bits ≤ infinityBits) :
    (UnpackedFloat.unpackExponent (BitVec.ofNat Format.binary64.numBits bits)).toNat =
      bits / 2 ^ 52 := by
  have small : bits ≤ 2047 * 2 ^ 52 := bound
  have numBits : Format.binary64.numBits = 64 := rfl
  simp only [UnpackedFloat.unpackExponent, BitVec.toNat_cast, BitVec.extractLsb_toNat,
    Nat.shiftRight_eq_div_pow, BitVec.toNat_ofNat, numBits]
  norm_num
  omega

theorem toNat_unpackMantissa (bound : bits ≤ infinityBits) :
    (UnpackedFloat.unpackMantissa (BitVec.ofNat Format.binary64.numBits bits)).toNat =
      bits % 2 ^ 52 := by
  have small : bits ≤ 2047 * 2 ^ 52 := bound
  have numBits : Format.binary64.numBits = 64 := rfl
  simp only [UnpackedFloat.unpackMantissa, BitVec.toNat_cast, BitVec.extractLsb_toNat,
    Nat.shiftRight_eq_div_pow, BitVec.toNat_ofNat, numBits]
  norm_num

/-- Up to infinity, the greatest exponent has no mantissa. -/
theorem unpackMantissa_of_top (bound : bits ≤ infinityBits)
    (top : UnpackedFloat.unpackExponent (BitVec.ofNat Format.binary64.numBits bits) = -1#_) :
    UnpackedFloat.unpackMantissa (BitVec.ofNat Format.binary64.numBits bits) = 0#_ := by
  have small : bits ≤ 2047 * 2 ^ 52 := bound
  have exponent := toNat_unpackExponent bound
  have greatest : (-1#_ : BitVec Format.binary64.exponentBits).toNat = 2047 := rfl
  rw [top, greatest] at exponent
  apply BitVec.eq_of_toNat_eq
  rw [toNat_unpackMantissa bound, BitVec.toNat_zero]
  omega

theorem unpackMantissa_of_low (positive : 0 < bits) (bound : bits ≤ infinityBits)
    (low : UnpackedFloat.unpackExponent (BitVec.ofNat Format.binary64.numBits bits) = 0#_) :
    UnpackedFloat.unpackMantissa (BitVec.ofNat Format.binary64.numBits bits) ≠ 0#_ := by
  intro bare
  have exponent := toNat_unpackExponent bound
  have mantissa := toNat_unpackMantissa bound
  rw [low, BitVec.toNat_zero] at exponent
  rw [bare, BitVec.toNat_zero] at mantissa
  omega

/-- Up to infinity, the bits are those of the double that they stand for. -/
theorem toBits_ofBits (bound : bits ≤ infinityBits) :
    (Float.ofBits (UInt64.ofNat bits)).toBits = UInt64.ofNat bits := by
  have valid : Format.binary64.Valid (UInt64.ofNat bits).toBitVec :=
    ⟨fun top present => absurd (unpackMantissa_of_top bound top) present⟩
  exact UInt64.toBitVec_inj.mp (pack_unpack valid)

theorem toNat_toBits (bound : bits ≤ infinityBits) :
    (Float.ofBits (UInt64.ofNat bits)).toBits.toNat = bits := by
  rw [toBits_ofBits bound, UInt64.toNat_ofNat_of_lt' (Nat.lt_of_le_of_lt bound (by decide))]

/-- Bits above zero, up to those of infinity, stand for a finite number or for infinity. -/
theorem unpack_positive (positive : 0 < bits) (bound : bits ≤ infinityBits) :
    UnpackedFloat.unpack Format.binary64 (BitVec.ofNat Format.binary64.numBits bits) ≠
        .notANumber ∧
      ∀ sign, UnpackedFloat.unpack Format.binary64 (BitVec.ofNat Format.binary64.numBits bits) ≠
        .zero sign := by
  unfold UnpackedFloat.unpack
  by_cases top : UnpackedFloat.unpackExponent
      (BitVec.ofNat Format.binary64.numBits bits) = -1#_
  · simp only [if_pos top, if_pos (unpackMantissa_of_top bound top)]
    exact ⟨nofun, fun _ => nofun⟩
  by_cases low : UnpackedFloat.unpackExponent
      (BitVec.ofNat Format.binary64.numBits bits) = 0#_
  · simp only [if_neg top, if_pos low, dif_neg (unpackMantissa_of_low positive bound low)]
    exact ⟨nofun, fun _ => nofun⟩
  · simp only [if_neg top, if_neg low]
    exact ⟨nofun, fun _ => nofun⟩

theorem isProper_ofBits (positive : 0 < bits) (bound : bits ≤ infinityBits) :
    IsProper (Float.ofBits (UInt64.ofNat bits)) := by
  have unpacked : (Float.ofBits (UInt64.ofNat bits)).toModel.unpack =
      UnpackedFloat.unpack Format.binary64 (BitVec.ofNat Format.binary64.numBits bits) :=
    congrArg (fun bits => UnpackedFloat.unpack Format.binary64 (UInt64.toBitVec bits))
      (toBits_ofBits bound)
  obtain ⟨number, nonzero⟩ := unpack_positive positive bound
  exact ⟨unpacked ▸ number, unpacked ▸ nonzero⟩

/-- Up to infinity the sign bit is not set, and there is a number. -/
theorem nonneg_ofBits (bound : bits ≤ infinityBits) :
    isNegative (Float.ofBits (UInt64.ofNat bits)) = false ∧
      (Float.ofBits (UInt64.ofNat bits)).isNaN = false := by
  constructor
  · rw [isNegative, toNat_toBits bound, decide_eq_false_iff_not, Nat.not_le]
    exact Nat.lt_of_le_of_lt bound (by decide)
  · rcases Nat.eq_zero_or_pos bits with rfl | positive
    · rfl
    · exact (isProper_ofBits positive bound).isNaN_eq_false

end Bits

section Naturals

variable {number : Nat}

theorem ratioBits_le (numerator denominator : Nat) :
    ratioBits numerator denominator ≤ infinityBits :=
  Nat.min_le_right _ _

theorem nonneg_ofRatio (numerator denominator : Nat) :
    isNegative (ofRatio numerator denominator) = false ∧
      (ofRatio numerator denominator).isNaN = false :=
  nonneg_ofBits (ratioBits_le numerator denominator)

/-- The double of a decimal number is a number that is not negative, or it is infinity. -/
theorem nonneg_ofDecimal (mantissa : Nat) (exponent : Int) :
    isNegative (ofDecimal mantissa exponent) = false ∧
      (ofDecimal mantissa exponent).isNaN = false := by
  unfold ofDecimal
  split
  · exact nonneg_ofRatio 0 1
  · dsimp only
    split
    · exact nonneg_ofBits (Nat.le_refl infinityBits)
    · split
      · exact nonneg_ofRatio 0 1
      · split
        · exact nonneg_ofRatio _ 1
        · exact nonneg_ofRatio _ _

/-- A natural number in units of the scale that leaves 53 binary digits. -/
theorem shiftLeft_units (width : number.log2 ≤ 52) :
    number <<< 1074 = (number * 2 ^ (52 - number.log2)) <<< (number.log2 + 1022) := by
  have exponent : 52 - number.log2 + (number.log2 + 1022) = 1074 := by omega
  rw [Nat.shiftLeft_eq, Nat.shiftLeft_eq, Nat.mul_assoc, ← Nat.pow_add, exponent]

/-- A natural number of `width + 1` binary digits, for which a mantissa has room, has these bits. -/
theorem ratioBits_one (positive : 0 < number) (bound : number < 2 ^ 53) :
    ratioBits number 1 = (number.log2 + 1022) * 2 ^ 52 + number * 2 ^ (52 - number.log2) ∧
      2 ^ 52 ≤ number * 2 ^ (52 - number.log2) ∧ number * 2 ^ (52 - number.log2) < 2 ^ 53 := by
  have width : number.log2 ≤ 52 := Nat.lt_succ_iff.mp ((Nat.log2_lt positive.ne').mpr bound)
  obtain ⟨least, most⟩ := (Nat.log2_eq_iff positive.ne').mp rfl
  have scaled : 2 ^ number.log2 * 2 ^ (52 - number.log2) = 2 ^ 52 := by
    rw [← Nat.pow_add]
    congr 1
    omega
  have lower : 2 ^ 52 ≤ number * 2 ^ (52 - number.log2) := by
    rw [← scaled]
    exact Nat.mul_le_mul_right _ least
  have upper : number * 2 ^ (52 - number.log2) < 2 ^ 53 := by
    have twice : 2 ^ (number.log2 + 1) * 2 ^ (52 - number.log2) = 2 ^ 53 := by
      rw [← Nat.pow_add]
      congr 1
      omega
    rw [← twice]
    exact Nat.mul_lt_mul_of_pos_right most (Nat.two_pow_pos _)
  refine ⟨?_, lower, upper⟩
  have finite : (number.log2 + 1022) * 2 ^ 52 + number * 2 ^ (52 - number.log2) ≤ infinityBits := by
    rw [infinityBits_eq]
    omega
  rw [ratioBits_whole (shiftLeft_units width), Nat.shiftLeft_eq, Nat.min_eq_left finite]
  · rw [log2_shiftLeft lower upper]
    omega

/-- The scale that leaves 53 binary digits of a natural number in units. -/
theorem log2_units_sub (positive : 0 < number) :
    (number <<< 1074).log2 - 52 = number.log2 + 1022 := by
  rw [log2_shiftLeft_of_pos positive]
  omega

/-- Rounding a quotient does not fall below a natural number below it. -/
theorem le_roundedQuotient {numerator denominator quotient : Nat} (positive : 0 < denominator)
    (least : quotient * denominator ≤ numerator) :
    quotient ≤ roundedQuotient numerator denominator := by
  have whole : quotient ≤ numerator / denominator := (Nat.le_div_iff_mul_le positive).mpr least
  unfold roundedQuotient
  dsimp only
  split
  · exact whole
  · split <;> omega

/-- Rounding a quotient does not go beyond the next natural number. -/
theorem roundedQuotient_le (numerator denominator : Nat) :
    roundedQuotient numerator denominator ≤ numerator / denominator + 1 := by
  unfold roundedQuotient
  dsimp only
  split
  · omega
  · split <;> omega

/-- Numbers with more digits have greater bits. -/
theorem le_ratioBits_one (least : 2 ^ 53 ≤ number) : 1076 * 2 ^ 52 ≤ ratioBits number 1 := by
  have positive : 0 < number := by omega
  have digits : 53 ≤ number.log2 := (Nat.le_log2 positive.ne').mpr least
  have rounded :
      2 ^ 52 ≤ roundedQuotient (number <<< 1074) (1 <<< (number.log2 + 1022)) := by
    rw [Nat.one_shiftLeft]
    refine le_roundedQuotient (Nat.two_pow_pos _) ?_
    have exponent : 52 + (number.log2 + 1022) = number.log2 + 1074 := by omega
    rw [← Nat.pow_add, exponent, Nat.pow_add, Nat.shiftLeft_eq]
    exact Nat.mul_le_mul_right _ (Nat.log2_self_le positive.ne')
  unfold ratioBits
  dsimp only
  rw [Nat.div_one, log2_units_sub positive, infinityBits_eq, Nat.shiftLeft_eq (number.log2 + 1022)]
  omega

/-- Numbers of 64 binary digits have the bits of finite doubles. -/
theorem ratioBits_one_lt (bound : number < 2 ^ 64) : ratioBits number 1 < infinityBits := by
  rcases Nat.eq_zero_or_pos number with rfl | positive
  · decide
  have digits : number.log2 < 64 := (Nat.log2_lt positive.ne').mpr bound
  have quotient : number <<< 1074 / 1 <<< (number.log2 + 1022) < 2 ^ 53 := by
    have exponent : 53 + (number.log2 + 1022) = number.log2 + 1 + 1074 := by omega
    rw [Nat.one_shiftLeft, Nat.div_lt_iff_lt_mul (Nat.two_pow_pos _), ← Nat.pow_add, exponent,
      Nat.pow_add, Nat.shiftLeft_eq]
    exact Nat.mul_lt_mul_of_pos_right Nat.lt_log2_self (Nat.two_pow_pos 1074)
  have rounded := roundedQuotient_le (number <<< 1074) (1 <<< (number.log2 + 1022))
  unfold ratioBits
  dsimp only
  rw [Nat.div_one, log2_units_sub positive, infinityBits_eq, Nat.shiftLeft_eq (number.log2 + 1022)]
  omega

/-- No two natural numbers have the same bits, if one of them is below `2 ^ 53`. -/
theorem ratioBits_one_injective {other : Nat} (positive : 0 < number) (otherPositive : 0 < other)
    (bound : other < 2 ^ 53) (same : ratioBits number 1 = ratioBits other 1) : number = other := by
  obtain ⟨otherBits, otherLeast, otherMost⟩ := ratioBits_one otherPositive bound
  have width : other.log2 ≤ 52 :=
    Nat.lt_succ_iff.mp ((Nat.log2_lt otherPositive.ne').mpr bound)
  rw [otherBits] at same
  by_cases small : number < 2 ^ 53
  · obtain ⟨bits, least, most⟩ := ratioBits_one positive small
    rw [bits] at same
    -- The remaining bits of both numbers lie in the same range, which is less than one digit wide.
    have widths : number.log2 = other.log2 := by omega
    rw [widths] at same
    exact Nat.eq_of_mul_eq_mul_right (Nat.two_pow_pos (52 - other.log2)) (by omega)
  · have greater := le_ratioBits_one (Nat.not_lt.mp small)
    omega

theorem ratioBits_one_pos (positive : 0 < number) : 0 < ratioBits number 1 := by
  by_cases small : number < 2 ^ 53
  · obtain ⟨bits, least, -⟩ := ratioBits_one positive small
    omega
  · have greater := le_ratioBits_one (Nat.not_lt.mp small)
    omega

/-- The double of a natural number other than zero is a number and not zero, or it is infinity. -/
theorem isProper_ofNat (positive : 0 < number) : IsProper (ofNat number) :=
  isProper_ofBits (ratioBits_one_pos positive) (ratioBits_le number 1)

/-- Below `2 ^ 53` natural numbers can be told by their doubles, also from all greater ones. -/
theorem ofNat_beq_ofNat_iff {other : Nat} (positive : 0 < number) (otherPositive : 0 < other)
    (bound : other < 2 ^ 53) : (ofNat number == ofNat other) = true ↔ number = other := by
  rw [(isProper_ofNat otherPositive).beq_iff_eq]
  refine ⟨fun same => ratioBits_one_injective positive otherPositive bound ?_, congrArg ofNat⟩
  have bits := congrArg (fun double => double.toBits.toNat) same
  simpa only [ofNat, ofRatio, toNat_toBits (ratioBits_le _ 1)] using bits

theorem magnitudeBits_ofNat (number : Nat) : magnitudeBits (ofNat number) = ratioBits number 1 := by
  have toNat : (ofNat number).toBits.toNat = ratioBits number 1 := toNat_toBits (ratioBits_le _ 1)
  rw [magnitudeBits, toNat, Nat.mod_eq_of_lt]
  exact Nat.lt_of_le_of_lt (ratioBits_le number 1) (by decide)

theorem isFinite_ofNat (bound : number < 2 ^ 64) : isFinite (ofNat number) = true := by
  rw [isFinite, magnitudeBits_ofNat]
  exact decide_eq_true (ratioBits_one_lt bound)

/-- Below `2 ^ 53` a natural number is found in its double again. -/
theorem toNat?_ofNat (bound : number < 2 ^ 53) : toNat? (ofNat number) = some number := by
  rcases Nat.eq_zero_or_pos number with rfl | positive
  · rfl
  have width : number.log2 ≤ 52 := Nat.lt_succ_iff.mp ((Nat.log2_lt positive.ne').mpr bound)
  obtain ⟨bits, least, most⟩ := ratioBits_one positive bound
  have magnitude := magnitudeBits_ofNat number
  have parts : mantissaScale (ofNat number) =
      (number * 2 ^ (52 - number.log2), number.log2 + 1022) := by
    have exponent : ratioBits number 1 >>> 52 = number.log2 + 1023 := by
      rw [Nat.shiftRight_eq_div_pow]
      omega
    simp only [mantissaScale, magnitude, exponent, Nat.one_shiftLeft]
    rw [if_neg (by omega), Prod.mk.injEq]
    omega
  have finite : ¬infinityBits ≤ ratioBits number 1 := by
    rw [infinityBits_eq]
    omega
  have sign : isNegative (ofNat number) = false := (nonneg_ofRatio number 1).1
  simp only [toNat?, parts, sign, magnitude, finite, decide_false, Bool.or_false,
    Bool.false_eq_true, ↓reduceIte, ← shiftLeft_units width]
  rw [Nat.shiftLeft_shiftRight, Nat.shiftLeft_eq, Nat.one_shiftLeft, Nat.mul_mod_left, if_pos rfl]

end Naturals

end Binary64

end XmlRecords
