import Script8255.Proofs.Binary64.Order

/-! An integer as a floating-point number: its first binary digits, with the last one rounded. -/

namespace Script8255.Binary64

open Float.Model Float.Model.UnpackedFloat

section Digits

/-- A natural number counted in `2 ^ shift`. What is left over is rounded to the nearest count, and
from halfway between two to the even one. -/
def count (n shift : Nat) : Nat :=
  if 2 * (n % 2 ^ shift) < 2 ^ shift ∨
      2 * (n % 2 ^ shift) = 2 ^ shift ∧ n / 2 ^ shift % 2 = 0 then
    n / 2 ^ shift
  else n / 2 ^ shift + 1

def dropped (n : Nat) : Nat := n.log2 - 52

/-- A natural number rounded to fifty-three binary digits. -/
def rounded (n : Nat) : Nat := count n (dropped n) * 2 ^ dropped n

theorem count_zero (n : Nat) : count n 0 = n := by
  have whole : 2 * (n % 2 ^ 0) < 2 ^ 0 := by
    rw [Nat.pow_zero, Nat.mod_one]
    decide
  unfold count
  rw [if_pos (Or.inl whole), Nat.pow_zero, Nat.div_one]

theorem rounded_of_short {n : Nat} (short : n.log2 ≤ 52) : rounded n = n := by
  have nothing : dropped n = 0 := Nat.sub_eq_zero_of_le short
  rw [rounded, nothing, count_zero, Nat.pow_zero, Nat.mul_one]

theorem kept_bounds {n : Nat} (long : 52 ≤ n.log2) :
    2 ^ 52 ≤ n / 2 ^ dropped n ∧ n / 2 ^ dropped n < 2 ^ 53 := by
  have positive : n ≠ 0 := by
    rintro rfl
    simp at long
  have split : n.log2 = 52 + dropped n := by
    unfold dropped
    omega
  constructor
  · rw [Nat.le_div_iff_mul_le (Nat.two_pow_pos _), ← Nat.pow_add, ← split]
    exact Nat.log2_self_le positive
  · rw [Nat.div_lt_iff_lt_mul (Nat.two_pow_pos _), ← Nat.pow_add]
    have top := Nat.lt_log2_self (n := n)
    rwa [split, Nat.add_right_comm] at top

theorem count_bounds {n : Nat} (long : 52 ≤ n.log2) :
    2 ^ 52 ≤ count n (dropped n) ∧ count n (dropped n) ≤ 2 ^ 53 := by
  obtain ⟨low, high⟩ := kept_bounds long
  unfold count
  split <;> omega

/-- What is kept of a number from which digits are dropped: its first digits, and whether the rest
is none, less than half, half, or more. -/
structure Keeps (n shift : Nat) (kept : ExtendedMantissa) : Prop where
  mantissa : kept.mantissa = n / 2 ^ shift
  roundBit : kept.roundBit = true ↔ 2 ^ shift ≤ 2 * (n % 2 ^ shift)
  stickyBit : kept.stickyBit = true ↔
    2 * (n % 2 ^ shift) ≠ 0 ∧ 2 * (n % 2 ^ shift) ≠ 2 ^ shift

variable {n shift : Nat} {kept : ExtendedMantissa}

theorem Keeps.exact (n : Nat) : Keeps n 0 (.ofMantissaAndAccuracy n .exact) := by
  constructor
  · exact (Nat.div_one n).symm
  · simp [ExtendedMantissa.ofMantissaAndAccuracy, Nat.mod_one]
  · simp [ExtendedMantissa.ofMantissaAndAccuracy, Nat.mod_one]

theorem Keeps.shiftRightOne (keeps : Keeps n shift kept) :
    Keeps n (shift + 1) kept.shiftRightOne := by
  have doubled : 2 ^ (shift + 1) = 2 * 2 ^ shift := by rw [Nat.pow_succ, Nat.mul_comm]
  have quotient : n / 2 ^ (shift + 1) = n / 2 ^ shift / 2 := by
    rw [Nat.pow_succ, Nat.div_div_eq_div_mul]
  have rest : n % 2 ^ (shift + 1) = n % 2 ^ shift + 2 ^ shift * (n / 2 ^ shift % 2) := by
    rw [Nat.pow_succ, Nat.mod_mul]
  have below : n % 2 ^ shift < 2 ^ shift := Nat.mod_lt _ (Nat.two_pow_pos shift)
  have roundBit := keeps.roundBit
  have stickyBit := keeps.stickyBit
  constructor
  · rw [quotient, ← keeps.mantissa]
    rfl
  · rw [rest, doubled]
    simp only [ExtendedMantissa.shiftRightOne, keeps.mantissa, bne_iff_ne, ne_eq]
    rcases Nat.mod_two_eq_zero_or_one (n / 2 ^ shift) with even | odd
    · rw [even]
      omega
    · rw [odd]
      omega
  · rw [rest, doubled]
    simp only [ExtendedMantissa.shiftRightOne, Bool.or_eq_true, roundBit, stickyBit]
    rcases Nat.mod_two_eq_zero_or_one (n / 2 ^ shift) with even | odd
    · rw [even]
      omega
    · rw [odd]
      omega

theorem keeps_shiftRight (n shift : Nat) :
    Keeps n shift (ExtendedMantissa.ofMantissaAndAccuracy n .exact >>> shift) := by
  induction shift with
  | zero => exact .exact n
  | succ shift ih => exact ih.shiftRightOne

/-- The digits that are kept are rounded by what is known of the rest. -/
theorem Keeps.roundedMantissa (keeps : Keeps n shift kept) :
    kept.roundedMantissa = count n shift := by
  have below : n % 2 ^ shift < 2 ^ shift := Nat.mod_lt _ (Nat.two_pow_pos shift)
  obtain ⟨mantissa, roundBit, stickyBit⟩ := keeps
  obtain ⟨digits, half, more⟩ := kept
  dsimp only at mantissa roundBit stickyBit
  subst mantissa
  unfold count
  cases half <;> cases more <;>
    simp only [ExtendedMantissa.roundedMantissa, ExtendedMantissa.accuracy,
      Accuracy.roundToNearestEven, true_iff, false_iff, Bool.false_eq_true] at roundBit stickyBit ⊢
  · rw [if_pos (by omega)]
  · rw [if_pos (by omega)]
  · split <;> omega
  · rw [if_neg (by omega)]

theorem log2_mul_two_pow {n : Nat} (positive : 0 < n) (more : Nat) :
    (n * 2 ^ more).log2 = n.log2 + more := by
  have filled : n ≠ 0 := Nat.ne_of_gt positive
  have grown : n * 2 ^ more ≠ 0 := Nat.ne_of_gt (Nat.mul_pos positive (Nat.two_pow_pos more))
  rw [Nat.log2_eq_iff grown, Nat.add_right_comm, Nat.pow_add, Nat.pow_add]
  exact ⟨Nat.mul_le_mul_right _ (Nat.log2_self_le filled),
    Nat.mul_lt_mul_of_pos_right Nat.lt_log2_self (Nat.two_pow_pos more)⟩

theorem rounded_widened {n : Nat} (positive : 0 < n) :
    rounded (n * 2 ^ (52 - n.log2)) = rounded n * 2 ^ (52 - n.log2) := by
  rcases Nat.le_total 52 n.log2 with long | short
  · rw [Nat.sub_eq_zero_of_le long, Nat.pow_zero, Nat.mul_one, Nat.mul_one]
  · have widened : (n * 2 ^ (52 - n.log2)).log2 ≤ 52 := by
      rw [log2_mul_two_pow positive]
      omega
    rw [rounded_of_short widened, rounded_of_short short]

end Digits

section Formats

variable {n mantissa : Nat} {exponent : Int}

theorem targetExponent_eq (normal : -1022 ≤ n.log2 + exponent) :
    Format.binary64.targetExponent (totalExponent n exponent) = n.log2 + exponent - 52 := by
  have bits : Format.binary64.mantissaBits = 53 := rfl
  have least : Format.binary64.minExponent = -1074 := rfl
  unfold Format.targetExponent totalExponent
  rw [bits, least]
  omega

theorem shiftToTargetExponent_eq (long : 52 ≤ n.log2) (normal : -1074 ≤ exponent) :
    shiftToTargetExponent .binary64 n exponent .exact =
      (ExtendedMantissa.ofMantissaAndAccuracy n .exact >>> dropped n, exponent + dropped n) := by
  have amount : (n.log2 + exponent - 52 - exponent).toNat = dropped n := by
    unfold dropped
    omega
  unfold shiftToTargetExponent shiftToExponent
  rw [targetExponent_eq (by omega)]
  dsimp only
  rw [amount]

theorem carried (low : 2 ^ 52 ≤ n) (high : n ≤ 2 ^ 53) :
    2 ^ 52 ≤ n / 2 ^ dropped n ∧ n / 2 ^ dropped n < 2 ^ 53 ∧
      n / 2 ^ dropped n * 2 ^ dropped n = n ∧ dropped n ≤ 1 := by
  rcases Nat.lt_or_eq_of_le high with below | rfl
  · have digits : n.log2 = 52 := (Nat.log2_eq_iff (by omega)).mpr ⟨low, below⟩
    have nothing : dropped n = 0 := by rw [dropped, digits]
    rw [nothing, Nat.pow_zero, Nat.div_one]
    omega
  · have one : dropped (2 ^ 53) = 1 := by rw [dropped, Nat.log2_two_pow]
    rw [one]
    decide

theorem exists_roundWithAccuracy (sign : Sign) (long : 52 ≤ n.log2) (normal : -1074 ≤ exponent) :
    ∃ (mantissa shift : Nat) (positive : 0 < mantissa),
      roundWithAccuracy .binary64 sign n exponent .exact =
          .finite sign mantissa (exponent + shift) positive ∧
        2 ^ 52 ≤ mantissa ∧ mantissa < 2 ^ 53 ∧ mantissa * 2 ^ shift = rounded n ∧
        shift ≤ dropped n + 1 := by
  obtain ⟨low, high⟩ := count_bounds long
  have digits : 52 ≤ (count n (dropped n)).log2 := (Nat.le_log2 (by omega)).mpr low
  obtain ⟨least, below, whole, single⟩ := carried low high
  have kept := (keeps_shiftRight (count n (dropped n)) (dropped (count n (dropped n)))).mantissa
  have positive : 0 < count n (dropped n) / 2 ^ dropped (count n (dropped n)) := by omega
  refine ⟨_, dropped n + dropped (count n (dropped n)), positive, ?_, least, below, ?_, by omega⟩
  · unfold roundWithAccuracy
    rw [shiftToTargetExponent_eq long normal]
    dsimp only
    rw [(keeps_shiftRight n (dropped n)).roundedMantissa, shiftToTargetExponent_eq digits (by omega)]
    dsimp only
    simp only [kept, positive.ne', dite_false, UnpackedFloat.finite.injEq, true_and]
    omega
  · rw [Nat.add_comm, Nat.pow_add, ← Nat.mul_assoc, whole, rounded]

theorem exists_round (sign : Sign) (positive : 0 < n) :
    ∃ (mantissa : Nat) (exponent : Int) (filled : 0 < mantissa),
      round .binary64 sign n 0 = .finite sign mantissa exponent filled ∧
        2 ^ 52 ≤ mantissa ∧ mantissa < 2 ^ 53 ∧ -52 ≤ exponent ∧ exponent ≤ n.log2 ∧
        (mantissa * 2 ^ exponent : ℚ) = rounded n := by
  have widened := log2_mul_two_pow positive (52 - n.log2)
  obtain ⟨mantissa, shift, filled, shape, low, high, whole, few⟩ :=
    @exists_roundWithAccuracy (n * 2 ^ (52 - n.log2)) (-(52 - n.log2 : Nat)) sign (by omega)
      (by omega)
  have amount : (0 - ((n.log2 : Int) + 0 - 52)).toNat = 52 - n.log2 := by omega
  have fewer : dropped (n * 2 ^ (52 - n.log2)) ≤ dropped n := by
    unfold dropped
    omega
  have range : dropped n = n.log2 - 52 := rfl
  refine ⟨mantissa, -(52 - n.log2 : Nat) + shift, filled, ?_, low, high, by omega, by omega, ?_⟩
  · rw [← shape]
    unfold UnpackedFloat.round decreaseExponent
    rw [targetExponent_eq (by omega)]
    dsimp only
    rw [amount, Nat.shiftLeft_eq, Int.zero_sub]
  · have scaled : (mantissa * 2 ^ shift : ℚ) = rounded n * 2 ^ (52 - n.log2) := by
      rw [rounded_widened positive] at whole
      exact_mod_cast whole
    have nonzero : (2 : ℚ) ^ (52 - n.log2) ≠ 0 := pow_ne_zero _ two_ne_zero
    calc (mantissa * 2 ^ (-((52 - n.log2 : Nat) : Int) + shift) : ℚ)
        = mantissa * 2 ^ shift * (2 ^ (52 - n.log2))⁻¹ := by
          rw [zpow_add₀ two_ne_zero, zpow_neg, zpow_natCast, zpow_natCast]
          ring
      _ = rounded n := by rw [scaled, mul_assoc, mul_inv_cancel₀ nonzero, mul_one]

end Formats

section Bits

variable {sign : Sign} {mantissa : Nat} {exponent : Int}

theorem toNat_packComponents (sign : Sign) (exponent : BitVec 11) (mantissa : BitVec 52) :
    (packComponents .binary64 sign exponent mantissa).toNat =
      (sign.toBitVec.toNat * 2 ^ 11 + exponent.toNat) * 2 ^ 52 + mantissa.toNat := by
  have appended {v w : Nat} (front : BitVec v) (back : BitVec w) :
      (front ++ back).toNat = front.toNat * 2 ^ w + back.toNat := by
    rw [BitVec.toNat_append, ← Nat.shiftLeft_add_eq_or_of_lt back.isLt, Nat.shiftLeft_eq]
  unfold packComponents
  rw [appended, appended]

theorem unpackSign_packComponents {spec : Format} (sign : Sign)
    (exponent : BitVec spec.exponentBits) (mantissa : BitVec spec.mantissaBitsWithoutImplicit) :
    unpackSign (packComponents spec sign exponent mantissa) = sign.toBitVec := by
  ext i inside
  obtain rfl : i = 0 := by omega
  simp [unpackSign, packComponents, BitVec.getLsbD_eq_getElem, BitVec.getLsbD_append,
    BitVec.getElem_append]

theorem pack_normal (low : 2 ^ 52 ≤ mantissa) (high : mantissa < 2 ^ 53)
    (above : -1074 ≤ exponent) (below : exponent ≤ 971) (positive : 0 < mantissa) :
    pack .binary64 (.finite sign mantissa exponent positive) =
      packComponents .binary64 sign (.ofNat 11 (exponent + 1075).toNat) (.ofNat 52 mantissa) := by
  have digits : mantissa.log2 + 1 = Format.binary64.mantissaBits := by
    rw [(Nat.log2_eq_iff positive.ne').mpr ⟨low, high⟩]
    rfl
  have biased : (exponent + Format.binary64.exponentBias +
      Format.binary64.mantissaBitsWithoutImplicit).toNat = (exponent + 1075).toNat := by
    change (exponent + 1023 + 52).toNat = _
    omega
  have finite : ¬2 ^ Format.binary64.exponentBits ≤ (exponent + 1075).toNat + 1 := by
    change ¬2048 ≤ _
    omega
  unfold UnpackedFloat.pack
  simp only [biased]
  rw [if_neg finite, if_pos digits]

theorem unpack_pack_normal (low : 2 ^ 52 ≤ mantissa) (high : mantissa < 2 ^ 53)
    (above : -1074 ≤ exponent) (below : exponent ≤ 971) (positive : 0 < mantissa) :
    unpack .binary64 (pack .binary64 (.finite sign mantissa exponent positive)) =
      .finite sign mantissa exponent positive := by
  have field : (BitVec.ofNat 11 (exponent + 1075).toNat).toNat = (exponent + 1075).toNat := by
    rw [BitVec.toNat_ofNat]
    omega
  have other {special : BitVec 11} (apart : (exponent + 1075).toNat ≠ special.toNat) :
      BitVec.ofNat 11 (exponent + 1075).toNat ≠ special := by
    intro same
    exact apart (field ▸ congrArg BitVec.toNat same)
  have notLast : BitVec.ofNat 11 (exponent + 1075).toNat ≠ -1#11 :=
    other (by change _ ≠ 2047; omega)
  have notFirst : BitVec.ofNat 11 (exponent + 1075).toNat ≠ 0#11 :=
    other (by change _ ≠ 0; omega)
  have digits : (1#1 ++ BitVec.ofNat 52 mantissa).toNat = mantissa := by
    rw [BitVec.toNat_append, ← Nat.shiftLeft_add_eq_or_of_lt (BitVec.isLt _), BitVec.toNat_ofNat]
    change 1 <<< 52 + mantissa % 2 ^ 52 = mantissa
    omega
  have signed : Sign.ofBitVec sign.toBitVec = sign := by cases sign <;> rfl
  rw [pack_normal low high above below]
  unfold UnpackedFloat.unpack
  simp only [unpackExponent_packComponents, unpackMantissa_packComponents,
    unpackSign_packComponents, if_neg notLast, if_neg notFirst, signed, field, digits,
    UnpackedFloat.finite.injEq, true_and]
  change ((exponent + 1075).toNat : Int) - (1023 + 52) = exponent
  omega

def isNegative : Sign → Bool
  | .negative => true
  | .positive => false

theorem decode_of_fields {bits : UInt64} {negative : Bool} {exponent fraction : Nat}
    (first : 0 < exponent) (last : exponent < 2047) (short : fraction < 2 ^ 52)
    (word : bits.toNat = (negative.toNat * 2 ^ 11 + exponent) * 2 ^ 52 + fraction) :
    decode bits = .finite negative (2 ^ 52 + fraction) ((exponent : Int) - 1075) := by
  have field : (bits.toNat >>> 52) % 2048 = exponent := by
    rw [Nat.shiftRight_eq_div_pow]
    omega
  have rest : bits.toNat % (1 <<< 52) = fraction := by
    rw [Nat.one_shiftLeft]
    omega
  have signed : decide (1 <<< 63 ≤ bits.toNat) = negative := by
    rw [Nat.one_shiftLeft, word]
    cases negative with
    | false => exact decide_eq_false (by rw [Bool.toNat_false]; omega)
    | true => exact decide_eq_true (by rw [Bool.toNat_true]; omega)
  unfold decode
  simp only [field, rest, signed]
  rw [if_neg (by omega), if_neg (by omega), Nat.one_shiftLeft]

theorem number_pack (low : 2 ^ 52 ≤ mantissa) (high : mantissa < 2 ^ 53)
    (above : -1074 ≤ exponent) (below : exponent ≤ 971) (positive : 0 < mantissa) :
    number (.ofModel (.pack (.finite sign mantissa exponent positive))) =
      .finite (isNegative sign) mantissa exponent := by
  have one : sign.toBitVec.toNat = (isNegative sign).toNat := by cases sign <;> rfl
  have word : (Float.ofModel (.pack (.finite sign mantissa exponent positive))).toBits.toNat =
      ((isNegative sign).toNat * 2 ^ 11 + (exponent + 1075).toNat) * 2 ^ 52 +
        (mantissa - 2 ^ 52) := by
    change (pack .binary64 (.finite sign mantissa exponent positive)).toNat = _
    rw [pack_normal low high above below, toNat_packComponents, BitVec.toNat_ofNat,
      BitVec.toNat_ofNat, one]
    omega
  have whole : 2 ^ 52 + (mantissa - 2 ^ 52) = mantissa := by omega
  have unbiased : ((exponent + 1075).toNat : Int) - 1075 = exponent := by omega
  unfold number
  rw [decode_of_fields (by omega) (by omega) (by omega) word, whole, unbiased]

end Bits

section Words

def roundedInt (n : Int) : Int := n.sign * rounded n.natAbs

theorem toFloat_of_pos {n : UInt64} (positive : 0 < n.toNat) :
    n.toFloat = .ofModel (.pack (UnpackedFloat.round .binary64 .positive n.toNat 0)) := by
  have above : compare (n.toNat : Int) 0 = .gt := by
    rw [compare_gt_iff_gt]
    omega
  change Float.ofModel (.pack (UnpackedFloat.normalize .binary64 n.toNat 0 .positive)) = _
  unfold UnpackedFloat.normalize
  rw [above]
  rfl

theorem neg_ofModel_pack {sign : Sign} {mantissa : Nat} {exponent : Int} (low : 2 ^ 52 ≤ mantissa)
    (high : mantissa < 2 ^ 53) (above : -1074 ≤ exponent) (below : exponent ≤ 971)
    (positive : 0 < mantissa) :
    -(Float.ofModel (.pack (.finite sign mantissa exponent positive))) =
      .ofModel (.pack (.finite (-sign) mantissa exponent positive)) := by
  have unpacked := @unpack_pack_normal sign mantissa exponent low high above below positive
  change Float.ofModel (.pack (unpack .binary64
    (pack .binary64 (.finite sign mantissa exponent positive))).neg) = _
  rw [unpacked]
  rfl

theorem number_ofWord_zero : number (ofWord 0) = .finite false 0 (-1074) := by decide +kernel

theorem extended?_ofWord (n : Int64) :
    (number (ofWord n)).extended? = some ↑(↑(roundedInt n.toInt : ℚ) : WithTop ℚ) := by
  have low := n.le_toInt
  have high := n.toInt_lt
  have magnitude : (UInt64.ofNat n.toInt.natAbs).toNat = n.toInt.natAbs :=
    UInt64.toNat_ofNat_of_lt (by change _ < 2 ^ 64; omega)
  by_cases zero : n.toInt = 0
  · obtain rfl : n = 0 := Int64.toInt_inj.mp zero
    rw [number_ofWord_zero]
    simp [Number.extended?, rational, roundedInt]
  · have positive : 0 < n.toInt.natAbs := by omega
    have short : n.toInt.natAbs.log2 < 64 := (Nat.log2_lt positive.ne').mpr (by omega)
    obtain ⟨mantissa, exponent, filled, shape, least, below, small, large, value⟩ :=
      exists_round .positive positive
    have float : (UInt64.ofNat n.toInt.natAbs).toFloat =
        .ofModel (.pack (.finite .positive mantissa exponent filled)) := by
      rw [toFloat_of_pos (by rwa [magnitude]), magnitude, shape]
    unfold ofWord
    simp only [Int64.lt_iff_toInt_lt, Int64.toInt_zero, float]
    by_cases negative : n.toInt < 0
    · rw [if_pos negative, neg_ofModel_pack least below (by omega) (by omega),
        number_pack least below (by omega) (by omega)]
      have signed : (roundedInt n.toInt : ℚ) = -rounded n.toInt.natAbs := by
        rw [roundedInt, Int.sign_eq_neg_one_of_neg negative]
        simp
      rw [signed, ← value]
      rfl
    · rw [if_neg negative, number_pack least below (by omega) (by omega)]
      have signed : (roundedInt n.toInt : ℚ) = rounded n.toInt.natAbs := by
        rw [roundedInt, Int.sign_eq_one_of_pos (by omega)]
        simp
      rw [signed, ← value]
      rfl

end Words

end Script8255.Binary64
