import Script8255.Proofs.Binary64.Nearest
import Script8255.Proofs.Binary64.Pattern
import Script8255.Proofs.Decimal
import Script8255.Proofs.Power

/-! A floating-point number that is cast to an integer loses its fraction and nothing else. -/

namespace Script8255

namespace Binary64

section Fractions

def towardZero (value : ℚ) : Int := if 0 ≤ value then ⌊value⌋ else ⌈value⌉

theorem towardZero_neg (value : ℚ) : towardZero (-value) = -towardZero value := by
  unfold towardZero
  rcases lt_trichotomy value 0 with negative | rfl | positive
  · rw [if_pos (neg_nonneg.mpr negative.le), if_neg (not_le.mpr negative), Int.floor_neg]
  · simp
  · rw [if_neg (not_le.mpr (neg_lt_zero.mpr positive)), if_pos positive.le, Int.ceil_neg]

def wholePart (mantissa : Nat) (exponent : Int) : Nat :=
  if 0 ≤ exponent then mantissa <<< exponent.toNat else mantissa >>> (-exponent).toNat

theorem floor_magnitude (mantissa : Nat) (exponent : Int) :
    ⌊(mantissa * 2 ^ exponent : ℚ)⌋ = wholePart mantissa exponent := by
  unfold wholePart
  by_cases whole : 0 ≤ exponent
  · obtain ⟨more, rfl⟩ := Int.eq_ofNat_of_zero_le whole
    have scaled : (mantissa * 2 ^ (more : Int) : ℚ) = (mantissa * 2 ^ more : Nat) := by
      rw [zpow_natCast]
      push_cast
      rfl
    rw [if_pos whole, scaled, Int.floor_natCast, Int.toNat_natCast, Nat.shiftLeft_eq]
  · obtain ⟨fewer, rfl⟩ : ∃ fewer : Nat, exponent = -fewer := ⟨(-exponent).toNat, by omega⟩
    have scaled : (mantissa * 2 ^ (-(fewer : Int)) : ℚ) = (mantissa : ℚ) / (2 ^ fewer : Nat) := by
      rw [zpow_neg, zpow_natCast, div_eq_mul_inv]
      push_cast
      rfl
    rw [if_neg whole, scaled, Rat.floor_natCast_div_natCast, neg_neg, Int.toNat_natCast,
      Nat.shiftRight_eq_div_pow, Int.natCast_ediv]

theorem towardZero_rational (negative : Bool) (mantissa : Nat) (exponent : Int) :
    towardZero (rational negative mantissa exponent) =
      if negative then -(wholePart mantissa exponent : Int) else wholePart mantissa exponent := by
  have magnitude : towardZero (mantissa * 2 ^ exponent) = wholePart mantissa exponent := by
    have natural : (0 : ℚ) ≤ mantissa * 2 ^ exponent := by positivity
    rw [towardZero, if_pos natural, floor_magnitude]
  cases negative with
  | false => exact magnitude
  | true => exact (towardZero_neg _).trans (congrArg Neg.neg magnitude)

theorem truncate?_finite (negative : Bool) (mantissa : Nat) (exponent : Int) :
    (Number.finite negative mantissa exponent).truncate? =
      some (towardZero (rational negative mantissa exponent)) := by
  rw [towardZero_rational]
  rfl

end Fractions

section Bounds

theorem denotes_ofWord {n : Int64} (short : n.toInt.natAbs ≤ 2 ^ 53) :
    Denotes (ofWord n) n.toInt := by
  rw [denotes_iff, extended?_ofWord, roundedInt_of_small short]

theorem towardZero_intCast (n : Int) : towardZero n = n := by
  unfold towardZero
  rw [Int.floor_intCast, Int.ceil_intCast, ite_self]

/-- The integer part of a number is a number again: either the number has no fraction, or its
integer part is short. -/
theorem exists_truncated {x : Float} {value : ℚ} (denotes : Denotes x value) :
    ∃ t, Denotes t (towardZero value) := by
  obtain ⟨negative, mantissa, exponent, finite, rfl⟩ := denotes
  by_cases whole : 0 ≤ exponent
  · obtain ⟨more, rfl⟩ := Int.eq_ofNat_of_zero_le whole
    have scaled : rational negative mantissa more =
        ((if negative then -(mantissa * 2 ^ more : Nat) else (mantissa * 2 ^ more : Nat) : Int) :
          ℚ) := by
      cases negative <;> simp [rational]
    refine ⟨x, negative, mantissa, more, finite, ?_⟩
    rw [scaled, towardZero_intCast]
  · have short : wholePart mantissa exponent < 2 ^ 53 :=
      calc wholePart mantissa exponent
          = mantissa / 2 ^ (-exponent).toNat := by
            rw [wholePart, if_neg whole, Nat.shiftRight_eq_div_pow]
        _ ≤ mantissa := Nat.div_le_self _ _
        _ < 2 ^ 53 := mantissa_lt finite
    have magnitude : (towardZero (rational negative mantissa exponent)).natAbs < 2 ^ 53 := by
      rw [towardZero_rational]
      cases negative with
      | false => exact short
      | true => exact (Int.natAbs_neg _).trans_lt short
    obtain ⟨word, held⟩ := (Value.fitsWord_iff.mpr ⟨by omega, by omega⟩ :
      Text.FitsWord (towardZero (rational negative mantissa exponent))).exists_toInt
    refine ⟨ofWord word, ?_⟩
    rw [← held] at magnitude ⊢
    exact denotes_ofWord (by omega)

theorem extended?_minValue :
    (number (ofWord Int64.minValue)).extended? = some ↑(↑(-2 ^ 63 : ℚ) : WithTop ℚ) := by
  have limit : roundedInt Int64.minValue.toInt = -2 ^ 63 := by decide +kernel
  rw [extended?_ofWord, limit]
  norm_cast

theorem extended?_maxValue :
    (number (ofWord Int64.maxValue)).extended? = some ↑(↑(2 ^ 63 : ℚ) : WithTop ℚ) := by
  have limit : roundedInt Int64.maxValue.toInt = 2 ^ 63 := by decide +kernel
  rw [extended?_ofWord, limit]
  norm_cast

theorem outside_iff {t : Float} {n : Int} (denotes : Denotes t n) :
    compare? t (ofWord Int64.minValue) = some .lt ∨ compare? t (ofWord Int64.maxValue) ≠ some .lt ↔
      ¬(-2 ^ 63 ≤ n ∧ n < 2 ^ 63) := by
  have below (limit : Int) {bound : Float}
      (extended : (number bound).extended? = some ↑(↑(limit : ℚ) : WithTop ℚ)) :
      compare? t bound = some .lt ↔ n < limit := by
    rw [compare?_eq_some_iff, denotes_iff.mp denotes, extended]
    simp [Ordering.Compares]
  have low := below (-2 ^ 63) (by rw [extended?_minValue]; norm_cast)
  have high := below (2 ^ 63) (by rw [extended?_maxValue]; norm_cast)
  rw [ne_eq, low, high]
  omega

end Bounds

end Binary64

open Binary64

namespace Value

theorem cast_float_of_special {x : Float} (special : (number x).truncate? = none) :
    (float x).cast .integer = .error (.notFinite x) := by
  change (integerOfFloat x).map int = _
  rw [integerOfFloat, special]
  rfl

theorem cast_float_of_finite {x : Float} {negative : Bool} {mantissa : Nat} {exponent : Int}
    (finite : number x = .finite negative mantissa exponent) :
    (float x).cast .integer =
      ofInteger (towardZero (rational negative mantissa exponent)) .overflow := by
  change (integerOfFloat x).map int = _
  rw [integerOfFloat, finite, truncate?_finite, ofInteger]
  dsimp only
  cases Text.word? (towardZero (rational negative mantissa exponent)) <;> rfl

end Value

/-- A number that is not finite is refused. A finite one is cast to the integer part of what it
denotes if that is a word, and is an overflow otherwise. To compare the integer part, as a number,
with the least and the largest word comes to the same. -/
theorem float_cast_truncates (bits : UInt64) :
    (match decode bits with
      | .finite negative mantissa exponent =>
        let whole := towardZero (rational negative mantissa exponent)
        (if -2 ^ 63 ≤ whole ∧ whole < 2 ^ 63 then
            ∃ word : Int64, word.toInt = whole ∧
              (Value.float (.ofBits bits)).cast .integer = .ok (.int word)
          else (Value.float (.ofBits bits)).cast .integer = .error .overflow) ∧
        ∃ t, Denotes t whole ∧
          ((Value.float (.ofBits bits)).cast .integer = .error .overflow ↔
            compare? t (ofWord Int64.minValue) = some .lt ∨
              compare? t (ofWord Int64.maxValue) ≠ some .lt)
      | _ => (Value.float (.ofBits bits)).cast .integer = .error (.notFinite (.ofBits bits))) ∧
      (Failure.unusable (.notFinite (.ofBits bits))).isFatal = false ∧
      (Failure.unusable .overflow).isFatal = false ∧
      (Failure.unusable .overflow).message = "integer overflow" := by
  refine ⟨?_, rfl, rfl, rfl⟩
  have shape := number_ofBits bits
  cases decoded : decode bits with
  | nan | infinite =>
    rw [decoded] at shape
    exact Value.cast_float_of_special (by rw [shape]; rfl)
  | finite negative mantissa exponent =>
    rw [decoded] at shape
    dsimp only
    rw [Value.cast_float_of_finite shape]
    obtain ⟨t, denotes⟩ := exists_truncated ⟨negative, mantissa, exponent, shape, rfl⟩
    refine ⟨?_, t, denotes, ?_⟩
    · split
      next inside =>
        obtain ⟨word, read, held⟩ := exists_ofInteger_iff.mpr (Value.fitsWord_iff.mpr inside)
        exact ⟨word, held, read⟩
      next outside => exact ofInteger_eq_error_iff.mpr (mt Value.fitsWord_iff.mp outside)
    · rw [outside_iff denotes, ofInteger_eq_error_iff, Value.fitsWord_iff]

example : (Value.float (.ofBits 0x43dfffffffffffff)).cast .integer =
      .ok (.int 9223372036854774784) ∧
    (Value.float (.ofBits 0x43e0000000000000)).cast .integer = .error .overflow := by
  decide +kernel

end Script8255
