import Mathlib
import XmlRecords.Binary64.Basic
import XmlRecords.Text.Numeral

/-! # Whole doubles

A double is given back by its bits, and a natural number that a double is, by the double. Rounding
then has nothing to do: the units of the number are those of the double, so that the scale that
leaves 53 binary digits is the double's own one, and the quotient by it is exact.
-/

namespace XmlRecords

namespace Binary64

open Float.Model

section Packing

/-- A pattern of 64 bits as a number, by its sign, its exponent and its mantissa. -/
theorem toNat_packComponents (sign : UnpackedFloat.Sign) (exponent : BitVec 11)
    (mantissa : BitVec 52) :
    (UnpackedFloat.packComponents Format.binary64 sign exponent mantissa).toNat =
      sign.toBitVec.toNat * 2 ^ 63 + exponent.toNat * 2 ^ 52 + mantissa.toNat := by
  have exponentBound := exponent.isLt
  have mantissaBound := mantissa.isLt
  unfold UnpackedFloat.packComponents
  rw [BitVec.toNat_append, BitVec.toNat_append, ← Nat.shiftLeft_add_eq_or_of_lt mantissaBound,
    ← Nat.shiftLeft_add_eq_or_of_lt exponentBound, Nat.shiftLeft_eq, Nat.shiftLeft_eq]
  omega

theorem toBitVec_ofBitVec (sign : BitVec 1) :
    (UnpackedFloat.Sign.ofBitVec sign).toBitVec = sign := by
  revert sign
  decide

/-- The parts of a pattern, put together again. -/
theorem packComponents_unpack (bits : BitVec Format.binary64.numBits) :
    UnpackedFloat.packComponents Format.binary64
      (UnpackedFloat.Sign.ofBitVec (UnpackedFloat.unpackSign bits))
      (UnpackedFloat.unpackExponent bits) (UnpackedFloat.unpackMantissa bits) = bits := by
  apply BitVec.eq_of_toNat_eq
  have bound := bits.isLt
  rw [toNat_packComponents, toBitVec_ofBitVec]
  simp only [UnpackedFloat.unpackSign, UnpackedFloat.unpackExponent, UnpackedFloat.unpackMantissa,
    BitVec.toNat_cast, BitVec.extractLsb_toNat, Nat.shiftRight_eq_div_pow] at bound ⊢
  norm_num at bound ⊢
  omega

theorem toNat_implicit_append (mantissa : BitVec 52) :
    (1#1 ++ mantissa).toNat = 2 ^ 52 + mantissa.toNat := by
  rw [BitVec.toNat_append, ← Nat.shiftLeft_add_eq_or_of_lt mantissa.isLt, Nat.shiftLeft_eq]
  rfl

/-- Packing clears the leading bit of a mantissa of 53 binary digits. -/
theorem pack_normal (sign : UnpackedFloat.Sign) {mantissa exponent : Nat}
    (least : 2 ^ 52 ≤ mantissa) (bound : mantissa < 2 ^ 53) (finite : exponent < 2047)
    (positive : 0 < mantissa) :
    UnpackedFloat.pack Format.binary64 (.finite sign mantissa (exponent - 1075) positive) =
      UnpackedFloat.packComponents Format.binary64 sign (BitVec.ofNat _ exponent)
        (BitVec.ofNat _ mantissa) := by
  have log : mantissa.log2 = 52 := (Nat.log2_eq_iff positive.ne').mpr ⟨least, bound⟩
  have biased : ((exponent - 1075 : Int) + Format.binary64.exponentBias
      + Format.binary64.mantissaBitsWithoutImplicit).toNat = exponent := by
    change ((exponent - 1075 : Int) + 1023 + 52).toNat = exponent
    omega
  have small : ¬2 ^ Format.binary64.exponentBits ≤ exponent + 1 := by
    change ¬2 ^ 11 ≤ exponent + 1
    omega
  simp only [UnpackedFloat.pack, biased, log, if_neg small]
  rfl

/-- A shorter mantissa is packed as it is, below the least exponent. -/
theorem pack_subnormal (sign : UnpackedFloat.Sign) {mantissa : Nat} (bound : mantissa < 2 ^ 52)
    (positive : 0 < mantissa) :
    UnpackedFloat.pack Format.binary64 (.finite sign mantissa (-1074) positive) =
      UnpackedFloat.packComponents Format.binary64 sign 0#_ (BitVec.ofNat _ mantissa) := by
  have log : ¬mantissa.log2 + 1 = Format.binary64.mantissaBits := by
    have short := (Nat.log2_lt positive.ne').mpr bound
    change ¬mantissa.log2 + 1 = 53
    omega
  have biased : ((-1074 : Int) + Format.binary64.exponentBias
      + Format.binary64.mantissaBitsWithoutImplicit).toNat = 1 := rfl
  simp only [UnpackedFloat.pack, biased, if_neg log]
  rfl

/-- Unpacking a valid pattern and packing it again changes nothing. -/
theorem pack_unpack {bits : BitVec Format.binary64.numBits} (valid : Format.binary64.Valid bits) :
    UnpackedFloat.pack Format.binary64 (UnpackedFloat.unpack Format.binary64 bits) = bits := by
  have whole := packComponents_unpack bits
  unfold UnpackedFloat.unpack
  by_cases top : UnpackedFloat.unpackExponent bits = -1#_
  · by_cases bare : UnpackedFloat.unpackMantissa bits = 0#_
    · rw [top, bare] at whole
      simp only [if_pos top, if_pos bare]
      exact whole
    · simp only [if_pos top, if_neg bare]
      exact (valid.eq_packedNaN top bare).symm
  · by_cases low : UnpackedFloat.unpackExponent bits = 0#_
    · rw [low] at whole
      by_cases bare : UnpackedFloat.unpackMantissa bits = 0#_
      · rw [bare] at whole
        simp only [if_neg top, if_pos low, dif_pos bare]
        exact whole
      · simp only [if_neg top, if_pos low, dif_neg bare]
        rw [low]
        refine (pack_subnormal _ (UnpackedFloat.unpackMantissa bits).isLt _).trans ?_
        rw [BitVec.ofNat_toNat, BitVec.setWidth_eq]
        exact whole
    · simp only [if_neg top, if_neg low]
      have mantissaBound : (UnpackedFloat.unpackMantissa bits).toNat < 2 ^ 52 :=
        (UnpackedFloat.unpackMantissa bits).isLt
      have exponentBound : (UnpackedFloat.unpackExponent bits).toNat < 2 ^ 11 :=
        (UnpackedFloat.unpackExponent bits).isLt
      have finite : (UnpackedFloat.unpackExponent bits).toNat ≠ 2047 := fun same =>
        top (BitVec.eq_of_toNat_eq same)
      have implicit := toNat_implicit_append (UnpackedFloat.unpackMantissa bits)
      have cleared : BitVec.ofNat 52 (1#1 ++ UnpackedFloat.unpackMantissa bits).toNat =
          UnpackedFloat.unpackMantissa bits := by
        apply BitVec.eq_of_toNat_eq
        rw [BitVec.toNat_ofNat, implicit]
        omega
      refine Eq.trans (pack_normal _ ?_ ?_ (by omega) _) (Eq.trans ?_ whole)
      · exact implicit ▸ Nat.le_add_right _ _
      · rw [implicit]
        omega
      · rw [BitVec.ofNat_toNat, BitVec.setWidth_eq]
        exact congrArg _ cleared

/-- A double is given back by its bits. -/
@[simp]
theorem ofBits_toBits (number : Float) : Float.ofBits number.toBits = number := by
  obtain ⟨bits, valid⟩ := number
  have packed := pack_unpack valid
  unfold Float.ofBits Float.toBits Float.Model.ofBits Float.Model.pack
  simp only [packed]

end Packing

/-- A quotient that is exact is not rounded. -/
theorem roundedQuotient_mul {quotient denominator : Nat} (positive : 0 < denominator) :
    roundedQuotient (quotient * denominator) denominator = quotient := by
  unfold roundedQuotient
  rw [Nat.mul_div_cancel _ positive, Nat.mul_mod_left]
  exact if_pos positive

/-- Shifting makes a number longer by as many binary digits. -/
theorem log2_shiftLeft_of_pos {number count : Nat} (positive : 0 < number) :
    (number <<< count).log2 = number.log2 + count := by
  obtain ⟨least, most⟩ := (Nat.log2_eq_iff positive.ne').mp rfl
  have power := Nat.two_pow_pos count
  rw [Nat.shiftLeft_eq]
  refine (Nat.log2_eq_iff (Nat.mul_pos positive power).ne').mpr ⟨?_, ?_⟩
  · rw [Nat.pow_add]
    exact Nat.mul_le_mul_right _ least
  · rw [Nat.add_right_comm, Nat.pow_add]
    exact Nat.mul_lt_mul_of_pos_right most power

theorem log2_shiftLeft {mantissa scale : Nat} (least : 2 ^ 52 ≤ mantissa)
    (bound : mantissa < 2 ^ 53) : (mantissa <<< scale).log2 = 52 + scale := by
  have positive : 0 < mantissa := by omega
  rw [log2_shiftLeft_of_pos positive, (Nat.log2_eq_iff positive.ne').mpr ⟨least, bound⟩]

/-- No bits are lost when those that are shifted out are zero. -/
theorem shiftRight_shiftLeft {bits count : Nat} (low : bits % (1 <<< count) = 0) :
    bits >>> count <<< count = bits := by
  rw [Nat.one_shiftLeft] at low
  rw [Nat.shiftLeft_eq, Nat.shiftRight_eq_div_pow,
    Nat.div_mul_cancel (Nat.dvd_of_mod_eq_zero low)]

/-- The scale of a double is the one that rounding would choose, and gives the bits back. -/
theorem mantissaScale_exact {number : Float} {mantissa scale : Nat}
    (parts : mantissaScale number = (mantissa, scale)) :
    (mantissa <<< scale).log2 - 52 = scale ∧
      (scale <<< 52) + mantissa = magnitudeBits number := by
  simp only [mantissaScale, Nat.one_shiftLeft, Nat.shiftRight_eq_div_pow] at parts
  rw [Nat.shiftLeft_eq scale]
  by_cases low : magnitudeBits number / 2 ^ 52 = 0
  · simp only [if_pos low, Prod.mk.injEq] at parts
    obtain ⟨rfl, rfl⟩ := parts
    rw [Nat.shiftLeft_zero]
    refine ⟨?_, by omega⟩
    rcases Nat.eq_zero_or_pos (magnitudeBits number) with zero | positive
    · rw [zero]
      rfl
    · have short := (Nat.log2_lt positive.ne').mpr (by omega : magnitudeBits number < 2 ^ 52)
      omega
  · simp only [if_neg low, Prod.mk.injEq] at parts
    obtain ⟨rfl, rfl⟩ := parts
    rw [log2_shiftLeft (by omega) (by omega)]
    omega

/-- The bits of a ratio that is a whole number of units of a scale, if rounding chooses it. -/
theorem ratioBits_whole {whole mantissa scale : Nat}
    (units : whole <<< 1074 = mantissa <<< scale)
    (exact : (mantissa <<< scale).log2 - 52 = scale) :
    ratioBits whole 1 = min ((scale <<< 52) + mantissa) infinityBits := by
  have quotient : roundedQuotient (mantissa <<< scale) (1 <<< scale) = mantissa := by
    rw [Nat.one_shiftLeft, Nat.shiftLeft_eq]
    exact roundedQuotient_mul (Nat.two_pow_pos scale)
  unfold ratioBits
  dsimp only
  rw [units, Nat.div_one, exact, quotient]

theorem ofNat_magnitudeBits {number : Float} (positive : isNegative number = false) :
    UInt64.ofNat (magnitudeBits number) = number.toBits := by
  have small : number.toBits.toNat < 2 ^ 63 := by
    simpa only [isNegative, Nat.one_shiftLeft, decide_eq_false_iff_not, Nat.not_le] using positive
  rw [magnitudeBits, Nat.one_shiftLeft, Nat.mod_eq_of_lt small, UInt64.ofNat_toNat]

/-- A double that is a natural number is the double nearest to that number. -/
theorem ofNat_of_toNat? {number : Float} {whole : Nat} (natural : toNat? number = some whole) :
    ofNat whole = number := by
  rcases parts : mantissaScale number with ⟨mantissa, scale⟩
  obtain ⟨exact, bits⟩ := mantissaScale_exact parts
  simp only [toNat?, parts] at natural
  split at natural
  · cases natural
  · rename_i ordinary
    simp only [Bool.or_eq_true, decide_eq_true_eq, not_or, Bool.not_eq_true, Nat.not_le] at ordinary
    obtain ⟨positive, finite⟩ := ordinary
    split at natural
    · rename_i low
      cases natural
      have units := shiftRight_shiftLeft low
      rw [ofNat, ofRatio, ratioBits_whole units exact, bits, Nat.min_eq_left finite.le,
        ofNat_magnitudeBits positive, ofBits_toBits]
    · cases natural

/-- A natural number without an exponent is rounded as it is, when it is not too long. -/
theorem ofDecimal_zero {number : Nat} (bound : number < 2 ^ 53) :
    ofDecimal number 0 = ofNat number := by
  have digits : (Nat.toDigits 10 number).length ≤ 16 :=
    (Nat.length_toDigits_le_iff (by decide) (by decide)).mpr (bound.trans (by decide))
  unfold ofDecimal
  split
  · rename_i zero
    rw [zero]
  · dsimp only
    rw [if_neg (by omega), if_neg (by omega)]
    change ofRatio (number * Nat.pow 10 0) 1 = ofRatio number 1
    rw [Nat.pow_eq, Nat.pow_zero, Nat.mul_one]

end Binary64

namespace Numeral

/-- The digits of a number denote it. -/
@[simp]
theorem value_digits (number : Nat) : value (digits number) = number := by
  have read := Nat.ofDigitChars_ten_toDigits (n := number)
  rwa [Nat.ofDigitChars_eq_foldl] at read

end Numeral

end XmlRecords
