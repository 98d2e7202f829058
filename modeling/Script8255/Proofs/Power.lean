import Mathlib.Tactic
import Script8255.Arithmetic

/-! Powers of integers. They are exact, or they are no words. -/

namespace Script8255.Value

open Text (FitsWord)

theorem fitsWord_iff {n : Int} : FitsWord n ↔ -2 ^ 63 ≤ n ∧ n < 2 ^ 63 :=
  and_congr_right fun _ => Int.lt_add_one_iff.symm

theorem exact_toInt (word : Int64) : exact word.toInt = .ok (.int word) := by
  unfold exact
  rw [Text.word?_eq_some_iff.mpr rfl]

theorem exact_of_not_fitsWord {n : Int} (outside : ¬FitsWord n) : exact n = .error .overflow := by
  unfold exact
  rw [Text.word?_eq_none_iff.mpr outside]

theorem not_fitsWord_of_large {n : Int} (large : 2 ^ 63 < n.natAbs) : ¬FitsWord n := by
  rw [fitsWord_iff]
  omega

section Powers

variable {base exponent : Int}

theorem pow_of_unit (unit : base.natAbs ≤ 1) (natural : 0 ≤ exponent) :
    base ^ (if exponent = 0 then 0 else 2 - (exponent % 2).toNat) = base ^ exponent.toNat := by
  obtain ⟨n, rfl⟩ := Int.eq_ofNat_of_zero_le natural
  by_cases zero : n = 0
  · subst zero
    rfl
  have parity : ((n : Int) % 2).toNat = n % 2 := by omega
  have positive : 2 - n % 2 ≠ 0 := by omega
  rw [if_neg (by omega), Int.toNat_natCast, parity]
  obtain rfl | rfl | rfl : base = 0 ∨ base = 1 ∨ base = -1 := by omega
  · rw [zero_pow positive, zero_pow zero]
  · rw [one_pow, one_pow]
  · rw [neg_one_pow_eq_pow_mod_two, neg_one_pow_eq_pow_mod_two n]
    congr 1
    omega

theorem not_fitsWord_pow {n : Nat} (large : 1 < base.natAbs) (long : 63 < n) :
    ¬FitsWord (base ^ n) := by
  apply not_fitsWord_of_large
  calc
    2 ^ 63 < 2 ^ n := Nat.pow_lt_pow_right (by decide) long
    _ ≤ base.natAbs ^ n := Nat.pow_le_pow_left large n
    _ = (base ^ n).natAbs := (Int.natAbs_pow base n).symm

theorem intPower_of_long (long : 2 ^ 32 ≤ exponent) : intPower base exponent = .error .overflow :=
  if_pos long

theorem intPower_eq_exact (natural : 0 ≤ exponent)
    (limited : exponent < 2 ^ 32 ∨ 1 < base.natAbs) :
    intPower base exponent = exact (base ^ exponent.toNat) := by
  have beyond (large : 1 < base.natAbs) (long : 63 < exponent) :
      exact (base ^ exponent.toNat) = .error .overflow :=
    exact_of_not_fitsWord (not_fitsWord_pow large (by omega))
  by_cases long : 2 ^ 32 ≤ exponent
  · rw [intPower_of_long long, beyond (by omega) (by omega)]
  · have short : ¬(UInt32.size : Int) ≤ exponent := long
    unfold intPower
    rw [if_neg short]
    by_cases unit : base.natAbs ≤ 1
    · rw [if_pos unit, ← pow_of_unit unit natural]
      rfl
    · rw [if_neg unit]
      by_cases large : 63 < exponent
      · rw [if_pos large, beyond (by omega) large]
      · rw [if_neg large]
        rfl

theorem apply_pow_int {b e : Int64} (natural : 0 ≤ e.toInt) :
    Operation.apply .pow (.int b) (.int e) = intPower b.toInt e.toInt :=
  if_pos natural

end Powers

section Squaring

def product? (m n : Int64) : Option Int64 := Text.word? (m.toInt * n.toInt)

/-- A result times a power, by repeated squaring. Each product on the way has to be a word, and no
square is taken that is not used. -/
def squaring? (result base : Int64) (exponent : Nat) : Option Int64 :=
  if exponent = 0 then some result
  else (if exponent % 2 = 1 then product? result base else some result).bind fun result =>
    if exponent = 1 then some result
    else (product? base base).bind fun square => squaring? result square (exponent / 2)
termination_by exponent
decreasing_by omega

theorem not_fitsWord_mul_of_pos {n factor : Int} (outside : ¬FitsWord n) (positive : 0 < factor) :
    ¬FitsWord (n * factor) := by
  rw [fitsWord_iff] at outside ⊢
  rintro ⟨low, high⟩
  apply outside
  constructor <;> nlinarith

theorem large_of_square {base : Int} (outside : ¬FitsWord (base * base)) : 2 ^ 63 < base * base := by
  have natural : 0 ≤ base * base := mul_self_nonneg base
  have reached : 2 ^ 63 ≤ base * base := by
    by_contra below
    exact outside (fitsWord_iff.mpr ⟨by omega, by omega⟩)
  have other : base * base ≠ 2 ^ 63 := by
    rw [← Int.natAbs_mul_self' base]
    norm_cast
    intro limit
    rcases Nat.lt_or_ge base.natAbs 3037000500 with small | large
    · have short : base.natAbs ≤ 3037000499 := by omega
      have below := Nat.mul_le_mul short short
      omega
    · have above := Nat.mul_le_mul large large
      omega
  omega

theorem not_fitsWord_of_square {n base : Int} {exponent : Nat} (filled : n ≠ 0)
    (positive : exponent ≠ 0) (outside : ¬FitsWord (base * base)) :
    ¬FitsWord (n * (base * base) ^ exponent) := by
  have large := large_of_square outside
  apply not_fitsWord_of_large
  calc
    2 ^ 63 < (base * base).natAbs := by omega
    _ ≤ (base * base).natAbs ^ exponent := Nat.le_pow (Nat.pos_of_ne_zero positive)
    _ ≤ n.natAbs * (base * base).natAbs ^ exponent :=
      Nat.le_mul_of_pos_left _ (Int.natAbs_pos.mpr filled)
    _ = n.natAbs * ((base * base) ^ exponent).natAbs := by rw [Int.natAbs_pow]
    _ = (n * (base * base) ^ exponent).natAbs := (Int.natAbs_mul _ _).symm

theorem product?_of_parity (result base : Int64) (exponent : Nat) :
    (if exponent % 2 = 1 then product? result base else some result) =
      Text.word? (result.toInt * base.toInt ^ (exponent % 2)) := by
  rcases Nat.mod_two_eq_zero_or_one exponent with even | odd
  · rw [even, if_neg (by decide), pow_zero, mul_one]
    exact (Text.word?_eq_some_iff.mpr rfl).symm
  · rw [odd, if_pos rfl, pow_one]
    rfl

theorem base_ne_zero_of_outside {result base : Int64} {bit : Nat} (short : bit < 2)
    (outside : ¬FitsWord (result.toInt * base.toInt ^ bit)) : base.toInt ≠ 0 := by
  intro zero
  apply outside
  rw [zero]
  obtain rfl | rfl : bit = 0 ∨ bit = 1 := by omega
  · rw [pow_zero, mul_one]
    exact Text.fitsWord_toInt result
  · rw [pow_one, mul_zero]
    exact Text.fitsWord_toInt 0

/-- Repeated squaring finds the power if it is a word. Where a product on the way is no word, the
power is none either. -/
theorem squaring?_eq_word? {result base : Int64} {exponent : Nat}
    (filled : base.toInt ≠ 0 → result.toInt ≠ 0) :
    squaring? result base exponent = Text.word? (result.toInt * base.toInt ^ exponent) := by
  induction exponent using Nat.strongRecOn generalizing result base with
  | _ exponent ih =>
    have whole : result.toInt * base.toInt ^ exponent =
        result.toInt * base.toInt ^ (exponent % 2) *
          (base.toInt * base.toInt) ^ (exponent / 2) := by
      rw [mul_assoc, ← pow_two, ← pow_mul, ← pow_add, Nat.mod_add_div]
    rw [squaring?, product?_of_parity, whole]
    by_cases none : exponent = 0
    · subst none
      rw [if_pos rfl]
      exact (Text.word?_eq_some_iff.mpr (by simp)).symm
    rw [if_neg none]
    cases found : Text.word? (result.toInt * base.toInt ^ (exponent % 2)) with
    | none =>
      have outside := Text.word?_eq_none_iff.mp found
      have other := base_ne_zero_of_outside (Nat.mod_lt _ (by decide)) outside
      have positive := pow_pos (mul_self_pos.mpr other) (exponent / 2)
      exact (Text.word?_eq_none_iff.mpr (not_fitsWord_mul_of_pos outside positive)).symm
    | some next =>
      have held := Text.word?_eq_some_iff.mp found
      have kept : base.toInt ≠ 0 → next.toInt ≠ 0 := by
        intro other
        rw [held]
        exact mul_ne_zero (filled other) (pow_ne_zero _ other)
      rw [Option.bind_some, ← held]
      by_cases single : exponent = 1
      · rw [if_pos single, single]
        exact (Text.word?_eq_some_iff.mpr (by simp)).symm
      rw [if_neg single]
      cases squared : product? base base with
      | none =>
        have outside := Text.word?_eq_none_iff.mp squared
        have other : base.toInt ≠ 0 := by
          intro zero
          rw [zero] at outside
          exact outside (Text.fitsWord_toInt 0)
        have half : exponent / 2 ≠ 0 := by omega
        have beyond := not_fitsWord_of_square (kept other) half outside
        exact (Text.word?_eq_none_iff.mpr beyond).symm
      | some square =>
        have product := Text.word?_eq_some_iff.mp squared
        rw [Option.bind_some, ← product]
        apply ih (exponent / 2) (by omega)
        intro nonzero
        apply kept
        intro zero
        rw [product, zero] at nonzero
        exact nonzero rfl

end Squaring

/-- A power of an integer is exact if it is a word, and an overflow otherwise. Exponents of more
than 32 bits are an overflow for every base, although the powers of 0, 1 and -1 are words. -/
theorem integer_power_exact (b e : Int64) (natural : 0 ≤ e.toInt) :
    (e.toInt < 2 ^ 32 ∨ 1 < b.toInt.natAbs →
        (FitsWord (b.toInt ^ e.toInt.toNat) →
            ∃ word : Int64, word.toInt = b.toInt ^ e.toInt.toNat ∧
              Operation.apply .pow (.int b) (.int e) = .ok (.int word)) ∧
          (¬FitsWord (b.toInt ^ e.toInt.toNat) →
            Operation.apply .pow (.int b) (.int e) = .error .overflow)) ∧
      (2 ^ 32 ≤ e.toInt → Operation.apply .pow (.int b) (.int e) = .error .overflow) ∧
      (e.toInt < 2 ^ 32 → Operation.apply .pow (.int b) (.int e) =
        (squaring? 1 b e.toInt.toNat).elim (.error .overflow) fun word => .ok (.int word)) ∧
      (Failure.unusable .overflow).isFatal = false ∧
      (Failure.unusable .overflow).message = "integer overflow" := by
  have computed (limited : e.toInt < 2 ^ 32 ∨ 1 < b.toInt.natAbs) :
      Operation.apply .pow (.int b) (.int e) = exact (b.toInt ^ e.toInt.toNat) :=
    (apply_pow_int natural).trans (intPower_eq_exact natural limited)
  refine ⟨?_, ?_, ?_, rfl, rfl⟩
  · intro limited
    rw [computed limited]
    constructor
    · intro inside
      obtain ⟨word, held⟩ := inside.exists_toInt
      exact ⟨word, held, held ▸ exact_toInt word⟩
    · exact exact_of_not_fitsWord
  · intro long
    exact (apply_pow_int natural).trans (intPower_of_long long)
  · intro short
    have squared : squaring? 1 b e.toInt.toNat = Text.word? (1 * b.toInt ^ e.toInt.toNat) :=
      squaring?_eq_word? fun _ => by decide
    rw [computed (Or.inl short), squared, one_mul]
    unfold exact
    cases Text.word? (b.toInt ^ e.toInt.toNat) <;> rfl

theorem least_word_is_power :
    (0 ≤ (63 : Int64).toInt ∧ (-2 : Int64).toInt ^ (63 : Int64).toInt.toNat = -2 ^ 63 ∧
        ∃ word : Int64, word.toInt = -2 ^ 63 ∧
          Operation.apply .pow (.int (-2)) (.int 63) = .ok (.int word)) ∧
      0 ≤ (64 : Int64).toInt ∧
        Operation.apply .pow (.int (-2)) (.int 64) = .error .overflow := by
  have power : (-2 : Int64).toInt ^ (63 : Int64).toInt.toNat = -2 ^ 63 := by decide
  have odd := integer_power_exact (-2) 63 (by decide)
  have even := integer_power_exact (-2) 64 (by decide)
  refine ⟨⟨by decide, power, ?_⟩, by decide, ?_⟩
  · obtain ⟨word, held, computed⟩ := (odd.1 (Or.inl (by decide))).1 (power ▸ by decide)
    exact ⟨word, power ▸ held, computed⟩
  · exact (even.1 (Or.inl (by decide))).2 (by decide)

/-- One is lost as its own power when the exponent has more than 32 bits. -/
theorem power_of_one_lost :
    0 ≤ (4294967296 : Int64).toInt ∧
      (1 : Int64).toInt ^ (4294967296 : Int64).toInt.toNat = (1 : Int64).toInt ∧
      FitsWord ((1 : Int64).toInt ^ (4294967296 : Int64).toInt.toNat) ∧
      Operation.apply .pow (.int 1) (.int 4294967296) = .error .overflow ∧
      Operation.apply .pow (.int 1) (.int 4294967296) ≠ .ok (.int 1) := by
  have one : (1 : Int64).toInt = 1 := rfl
  have power : (1 : Int64).toInt ^ (4294967296 : Int64).toInt.toNat = (1 : Int64).toInt := by
    rw [one, one_pow]
  have lost : Operation.apply .pow (.int 1) (.int 4294967296) = .error .overflow := rfl
  refine ⟨by decide, power, ?_, lost, ?_⟩
  · rw [power]
    exact Text.fitsWord_toInt 1
  · rw [lost]
    exact nofun

end Script8255.Value
