import Script8255.Proofs.Binary64.Reading

/-! The shortest decimal for a number is read as the number, and no decimal with fewer digits is. -/

namespace Script8255.Binary64

def Decimal.value (decimal : Decimal) : ℚ := decimal.digits * 10 ^ decimal.power

namespace Interval

section Search

variable {interval : Interval} {power digits n : Nat}

theorem holds_between {least most : Nat} (above : interval.holds least = true)
    (beneath : interval.holds most = true) (low : least ≤ n) (high : n ≤ most) :
    interval.holds n = true := by
  obtain ⟨lower, value, upper, closed⟩ := interval
  cases closed <;>
    simp only [holds, if_true, Bool.false_eq_true, if_false, Bool.and_eq_true,
      decide_eq_true_eq] at above beneath ⊢ <;>
    omega

theorem holds_of_nearest? (found : interval.nearest? power = some digits) :
    interval.holds (digits * 10 ^ power) = true := by
  unfold nearest? at found
  dsimp only at found
  split at found
  next lower upper =>
    split at found <;> cases found
    · exact lower
    · exact upper
  next lower _ =>
    cases found
    exact lower
  next _ upper =>
    cases found
    exact upper
  next => cases found

theorem not_holds_of_nearest? (own : interval.holds interval.value = true)
    (missing : interval.nearest? power = none) (n : Nat) :
    ¬interval.holds (n * 10 ^ power) = true := by
  intro held
  have positive : 0 < 10 ^ power := Nat.pow_pos (by decide)
  unfold nearest? at missing
  dsimp only at missing
  split at missing
  · split at missing <;> cases missing
  · cases missing
  · cases missing
  next lower upper =>
    rcases le_or_gt (n * 10 ^ power) interval.value with beneath | above
    · have least : n ≤ interval.value / 10 ^ power := (Nat.le_div_iff_mul_le positive).mpr beneath
      have held := holds_between held own (Nat.mul_le_mul_right _ least) (Nat.div_mul_le_self _ _)
      exact Bool.false_ne_true (lower.symm.trans held)
    · have most : interval.value / 10 ^ power + 1 ≤ n :=
        (Nat.div_lt_iff_lt_mul positive).mpr above
      have beyond : interval.value ≤ (interval.value / 10 ^ power + 1) * 10 ^ power :=
        (Nat.lt_mul_of_div_lt (Nat.lt_succ_self _) positive).le
      have held := holds_between own held beyond (Nat.mul_le_mul_right _ most)
      exact Bool.false_ne_true (upper.symm.trans held)

/-- The search ends with a multiple of the largest power of ten, up to the first that is tried, of
which the interval has a multiple. -/
theorem shortest_coarsest (own : interval.holds interval.value = true) (most : Nat) :
    interval.holds ((interval.shortest most).1 * 10 ^ (interval.shortest most).2) = true ∧
      ∀ power, (interval.shortest most).2 < power → power ≤ most →
        ∀ n, ¬interval.holds (n * 10 ^ power) = true := by
  induction most with
  | zero =>
    constructor
    · rw [shortest, Nat.pow_zero, Nat.mul_one]
      exact own
    · intro power above beneath
      omega
  | succ most ih =>
    rw [shortest]
    cases tried : interval.nearest? (most + 1) with
    | some digits =>
      constructor
      · exact holds_of_nearest? tried
      · intro power above beneath
        dsimp only at above
        omega
    | none =>
      dsimp only
      constructor
      · exact ih.1
      · intro power above beneath
        rcases Nat.lt_or_eq_of_le beneath with less | rfl
        · exact ih.2 power above (Nat.lt_succ_iff.mp less)
        · exact not_holds_of_nearest? own tried

end Search

section Units

variable {mantissa n : Nat}

def unit (exponent : Int) : ℚ := 10 ^ (-(places exponent : Int))

theorem unit_pos (exponent : Int) : 0 < unit exponent := by
  unfold unit
  positivity

theorem exists_quarter (exponent : Int) :
    ∃ quarter : Nat, 0 < quarter ∧ quarter * unit exponent = 2 ^ (exponent - 2) ∧
      ∀ mantissa, around mantissa exponent =
        ⟨(4 * mantissa - below mantissa exponent) * quarter, 4 * mantissa * quarter,
          (4 * mantissa + 2) * quarter, mantissa % 2 == 0⟩ := by
  refine ⟨if 2 ≤ exponent then 1 <<< (exponent - 2).toNat else Nat.pow 5 (2 - exponent).toNat,
    ?_, ?_, fun mantissa => rfl⟩
  · split
    · rw [Nat.one_shiftLeft]
      exact Nat.two_pow_pos _
    · exact Nat.pow_pos (by decide)
  · split
    next whole =>
      obtain ⟨more, rfl⟩ : ∃ more : Nat, exponent = 2 + more := ⟨(exponent - 2).toNat, by omega⟩
      have none : places (2 + more) = 0 := by
        unfold places
        omega
      rw [unit, none, Nat.one_shiftLeft, Nat.cast_zero, neg_zero, zpow_zero, mul_one,
        add_sub_cancel_left, Int.toNat_natCast, zpow_natCast]
      push_cast
      rfl
    next fractional =>
      obtain ⟨fewer, rfl⟩ : ∃ fewer : Nat, exponent = 2 - fewer := ⟨(2 - exponent).toNat, by omega⟩
      have all : places (2 - fewer) = fewer := by
        unfold places
        omega
      have ten : (10 : ℚ) ^ fewer = 5 ^ fewer * 2 ^ fewer := by
        rw [← mul_pow]
        norm_num
      have shown : (2 - (2 - (fewer : Int))).toNat = fewer := by omega
      have negated : (2 : Int) - fewer - 2 = -fewer := by omega
      rw [unit, all, shown, negated, zpow_neg, zpow_neg, zpow_natCast, zpow_natCast, ten]
      have nonzero : (5 : ℚ) ^ fewer ≠ 0 := by positivity
      push_cast [Nat.pow_eq]
      rw [mul_inv, mul_inv_cancel_left₀ nonzero]

theorem holds_around_iff (mantissa : Nat) (exponent : Int) (n : Nat) :
    (around mantissa exponent).holds n = true ↔ Within mantissa exponent (n * unit exponent) := by
  obtain ⟨quarter, -, scale, shape⟩ := exists_quarter exponent
  have scaled (m : Nat) :
      magnitude m (exponent - 2) = ((m * quarter : Nat) : ℚ) * unit exponent := by
    rw [magnitude, ← scale, Nat.cast_mul, mul_assoc]
  have injective {a b : Nat} : (a : ℚ) * unit exponent = b * unit exponent ↔ a = b := by
    rw [mul_left_inj' (unit_pos exponent).ne', Nat.cast_inj]
  rw [shape, Within, scaled, scaled, mul_lt_mul_iff_left₀ (unit_pos exponent),
    mul_lt_mul_iff_left₀ (unit_pos exponent), injective, injective, Nat.cast_lt, Nat.cast_lt]
  unfold holds
  dsimp only
  by_cases even : mantissa % 2 = 0
  · rw [if_pos (beq_iff_eq.mpr even)]
    simp only [Bool.and_eq_true, decide_eq_true_eq, even, and_true]
    omega
  · rw [if_neg (mt beq_iff_eq.mp even)]
    simp only [Bool.and_eq_true, decide_eq_true_eq, even, and_false, or_false]

theorem holds_value (positive : 0 < mantissa) (exponent : Int) :
    (around mantissa exponent).holds (around mantissa exponent).value = true := by
  obtain ⟨quarter, -, scale, shape⟩ := exists_quarter exponent
  rw [holds_around_iff, shape, Nat.cast_mul, mul_assoc, scale]
  have own := within_self positive exponent
  rwa [magnitude_quarters mantissa] at own

theorem bounds_of_holds (positive : 0 < mantissa) {exponent : Int}
    (held : (around mantissa exponent).holds n = true) :
    0 < n ∧ n < 10 * (around mantissa exponent).value := by
  obtain ⟨quarter, filled, -, shape⟩ := exists_quarter exponent
  have low : 0 < (4 * mantissa - below mantissa exponent) * quarter := by
    apply Nat.mul_pos _ filled
    unfold below
    split <;> omega
  have high : (4 * mantissa + 2) * quarter < 10 * (4 * mantissa * quarter) := by
    rw [← Nat.mul_assoc]
    exact Nat.mul_lt_mul_of_pos_right (by omega) filled
  rw [shape] at held ⊢
  unfold holds at held
  dsimp only at held ⊢
  split at held <;> simp only [Bool.and_eq_true, decide_eq_true_eq] at held <;> omega

end Units

end Interval

section Shortest

variable {mantissa : Nat} {exponent : Int} {decimal : Decimal}

/-- The shortest decimal is read as the number, and no multiple of a larger power of ten is. -/
theorem shortest_spec (positive : 0 < mantissa) (exponent : Int) :
    Within mantissa exponent (shortest mantissa exponent).value ∧
      ∀ (n : Nat) (power : Int), (shortest mantissa exponent).power < power →
        ¬Within mantissa exponent (n * 10 ^ power) := by
  have scaled (n power : Nat) :
      (n * 10 ^ (power - Interval.places exponent : Int) : ℚ) =
        ((n * 10 ^ power : Nat) : ℚ) * Interval.unit exponent := by
    rw [Interval.unit, sub_eq_add_neg, zpow_add₀ (by norm_num), zpow_natCast]
    push_cast
    ring
  let interval := Interval.around mantissa exponent
  let most := (Nat.toDigits 10 interval.value).length
  have shape : shortest mantissa exponent =
      ⟨(interval.shortest most).1, (interval.shortest most).2 - Interval.places exponent⟩ := rfl
  obtain ⟨held, coarsest⟩ :=
    Interval.shortest_coarsest (Interval.holds_value positive exponent) most
  rw [shape]
  constructor
  · rw [Interval.holds_around_iff, ← scaled] at held
    exact held
  · intro n power above within
    dsimp only at above
    obtain ⟨raised, rfl⟩ : ∃ raised : Nat, power = raised - Interval.places exponent :=
      ⟨(power + Interval.places exponent).toNat, by omega⟩
    have larger : (interval.shortest most).2 < raised := by omega
    rw [scaled, ← Interval.holds_around_iff] at within
    refine coarsest raised larger ?_ n within
    -- A multiple of a larger power of ten than those tried is beyond the interval.
    by_contra large
    obtain ⟨filled, inside⟩ := Interval.bounds_of_holds positive within
    have value : interval.value < 10 ^ most :=
      (Nat.length_toDigits_le_iff (by decide) Nat.length_toDigits_pos).mp le_rfl
    have power : 10 ^ (most + 1) ≤ 10 ^ raised :=
      Nat.pow_le_pow_right (by decide) (not_le.mp large)
    have multiple : 10 ^ raised ≤ n * 10 ^ raised :=
      Nat.le_mul_of_pos_left _ (Nat.pos_of_mul_pos_right filled)
    rw [Nat.pow_succ] at power
    change _ < 10 * interval.value at inside
    omega

/-- No decimal with fewer digits than the shortest one is read as the number. -/
theorem shortest_fewest (positive : 0 < mantissa)
    (within : Within mantissa exponent decimal.value) :
    (Nat.toDigits 10 (shortest mantissa exponent).digits).length ≤
      (Nat.toDigits 10 decimal.digits).length := by
  obtain ⟨own, coarsest⟩ := shortest_spec positive exponent
  by_contra longer
  generalize found : shortest mantissa exponent = least at own coarsest longer
  let digits := (Nat.toDigits 10 decimal.digits).length
  have fine : decimal.power ≤ least.power := by
    by_contra coarse
    exact coarsest _ _ (not_le.mp coarse) within
  have short : decimal.digits < 10 ^ digits :=
    (Nat.length_toDigits_le_iff (by decide) Nat.length_toDigits_pos).mp le_rfl
  have long : 10 ^ digits ≤ least.digits :=
    not_lt.mp fun less =>
      longer ((Nat.length_toDigits_le_iff (by decide) Nat.length_toDigits_pos).mpr less)
  -- A power of ten lies between the two decimals.
  have above : decimal.value ≤ 10 ^ (digits + least.power) :=
    calc decimal.value
        = decimal.digits * 10 ^ decimal.power := rfl
      _ ≤ 10 ^ digits * 10 ^ least.power := by
        apply mul_le_mul
        · exact_mod_cast short.le
        · exact zpow_le_zpow_right₀ (by norm_num) fine
        · positivity
        · positivity
      _ = 10 ^ (digits + least.power) := by rw [zpow_add₀ (by norm_num), zpow_natCast]
  have beneath : (10 ^ (digits + least.power) : ℚ) ≤ least.value :=
    calc (10 ^ (digits + least.power) : ℚ)
        = 10 ^ digits * 10 ^ least.power := by rw [zpow_add₀ (by norm_num), zpow_natCast]
      _ ≤ least.digits * 10 ^ least.power := by
        apply mul_le_mul_of_nonneg_right
        · exact_mod_cast long
        · positivity
      _ = least.value := rfl
  have between := within.between own above beneath
  have some : 0 < digits := Nat.length_toDigits_pos
  refine coarsest 1 (digits + least.power) (by omega) ?_
  rwa [Nat.cast_one, one_mul]

end Shortest

end Script8255.Binary64
