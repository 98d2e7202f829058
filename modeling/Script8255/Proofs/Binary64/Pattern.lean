import Script8255.Proofs.Binary64.Rounding

/-! The patterns of bits and the numbers they stand for. -/

namespace Script8255.Binary64

section Patterns

open Float.Model Float.Model.UnpackedFloat

theorem toNat_unpackExponent (word : BitVec 64) :
    (@unpackExponent .binary64 word).toNat = (word.toNat >>> 52) % 2048 := by
  simp [unpackExponent]

theorem toNat_unpackMantissa (word : BitVec 64) :
    (@unpackMantissa .binary64 word).toNat = word.toNat % (1 <<< 52) := by
  simp [unpackMantissa]

theorem decode_of_isNaNBits {bits : UInt64}
    (undefined : @isNaNBits .binary64 bits.toBitVec = true) : decode bits = .nan := by
  obtain ⟨full, filled⟩ := of_decide_eq_true undefined
  have exponent : (bits.toNat >>> 52) % 2048 = 2047 := by
    rw [← UInt64.toNat_toBitVec, ← toNat_unpackExponent, full]
    rfl
  have fraction : bits.toNat % (1 <<< 52) ≠ 0 := by
    rw [← UInt64.toNat_toBitVec, ← toNat_unpackMantissa]
    exact fun zero => filled (BitVec.eq_of_toNat_eq zero)
  unfold decode
  dsimp only
  rw [exponent, if_pos rfl, if_neg fraction]

theorem number_ofBits (bits : UInt64) : number (.ofBits bits) = decode bits := by
  have packed : (Float.ofBits bits).toBits =
      ⟨pack .binary64 (unpack .binary64 bits.toBitVec)⟩ := rfl
  rw [pack_unpack] at packed
  by_cases undefined : @isNaNBits .binary64 bits.toBitVec = true
  · rw [if_pos undefined] at packed
    rw [number, packed, decode_of_isNaNBits undefined]
    decide +kernel
  · rw [if_neg undefined] at packed
    rw [number, packed]

end Patterns

section Shapes

variable {x y : Float} {negative : Bool} {mantissa : Nat} {exponent : Int}

/-- A finite number has fifty-three binary digits, or fewer if its exponent is the least one. -/
structure Proper (mantissa : Nat) (exponent : Int) : Prop where
  short : mantissa < 2 ^ 53
  low : -1074 ≤ exponent
  full : mantissa < 2 ^ 52 → exponent = -1074

def pattern (negative : Bool) (mantissa : Nat) (exponent : Int) : Nat :=
  negative.toNat * 2 ^ 63 +
    if mantissa < 2 ^ 52 then mantissa
    else (exponent + 1075).toNat * 2 ^ 52 + (mantissa - 2 ^ 52)

theorem pattern_of_decode {bits : UInt64}
    (finite : decode bits = .finite negative mantissa exponent) :
    Proper mantissa exponent ∧ bits.toNat = pattern negative mantissa exponent := by
  have word : bits.toNat < 2 ^ 64 := bits.toNat_lt
  have whole : bits.toNat =
      (decide (2 ^ 63 ≤ bits.toNat)).toNat * 2 ^ 63 + bits.toNat % 2 ^ 63 := by
    by_cases marked : 2 ^ 63 ≤ bits.toNat
    · rw [decide_eq_true marked, Bool.toNat_true]
      omega
    · rw [decide_eq_false marked, Bool.toNat_false]
      omega
  unfold decode at finite
  dsimp only at finite
  rw [Nat.shiftRight_eq_div_pow, Nat.one_shiftLeft, Nat.one_shiftLeft] at finite
  split at finite
  · split at finite <;> cases finite
  · split at finite
    · cases finite
      refine ⟨⟨by omega, by omega, fun _ => rfl⟩, ?_⟩
      rw [pattern, if_pos (by omega)]
      omega
    · cases finite
      refine ⟨⟨by omega, by omega, fun _ => by omega⟩, ?_⟩
      rw [pattern, if_neg (by omega)]
      omega

theorem proper_of_number (finite : number x = .finite negative mantissa exponent) :
    Proper mantissa exponent :=
  (pattern_of_decode finite).1

theorem eq_of_number (left : number x = .finite negative mantissa exponent)
    (right : number y = .finite negative mantissa exponent) : x = y := by
  have same : x.toBits.toNat = y.toBits.toNat :=
    (pattern_of_decode left).2.trans (pattern_of_decode right).2.symm
  exact Float.toBits_inj.mp (UInt64.toNat_inj.mp same)

end Shapes

end Script8255.Binary64
