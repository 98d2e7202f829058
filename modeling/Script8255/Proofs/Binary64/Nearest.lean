import Script8255.Proofs.Binary64.Rounding

/-! The number that an integer counts as is the nearest one that there is. -/

namespace Script8255.Binary64

/-- The number is finite and stands for this rational number. -/
def Denotes (x : Float) (value : ℚ) : Prop :=
  ∃ negative mantissa exponent, number x = .finite negative mantissa exponent ∧
    value = rational negative mantissa exponent

section Finite

variable {x : Float} {value : ℚ}

theorem denotes_iff : Denotes x value ↔ (number x).extended? = some ↑(↑value : WithTop ℚ) := by
  constructor
  · rintro ⟨negative, mantissa, exponent, finite, rfl⟩
    rw [finite]
    rfl
  · intro extended
    cases shape : number x with
    | nan =>
      rw [shape] at extended
      cases extended
    | infinite negative =>
      rw [shape] at extended
      cases negative <;> cases extended
    | finite negative mantissa exponent =>
      rw [shape] at extended
      have same : rational negative mantissa exponent = value := by
        simpa [Number.extended?] using extended
      exact ⟨negative, mantissa, exponent, shape, same.symm⟩

theorem mantissa_lt {negative : Bool} {mantissa : Nat} {exponent : Int}
    (finite : number x = .finite negative mantissa exponent) : mantissa < 2 ^ 53 := by
  obtain ⟨sign, field, fraction, -, short, shape, -⟩ := exists_fields x
  rw [finite] at shape
  split at shape
  · split at shape <;> cases shape
  · split at shape
    · cases shape
      omega
    · cases shape
      rw [Nat.one_shiftLeft]
      omega

end Finite

section Nearest

variable {n mantissa : Nat} {exponent : Int}

theorem succ_le_of_lt (short : mantissa < 2 ^ 53)
    (above : ((n / 2 ^ dropped n * 2 ^ dropped n : Nat) : ℚ) < mantissa * 2 ^ exponent)
    (long : 52 ≤ n.log2) :
    (((n / 2 ^ dropped n + 1) * 2 ^ dropped n : Nat) : ℚ) ≤ mantissa * 2 ^ exponent := by
  have low : 2 ^ (52 + dropped n) ≤ n / 2 ^ dropped n * 2 ^ dropped n := by
    rw [Nat.pow_add]
    exact Nat.mul_le_mul_right _ (kept_bounds long).1
  have large : (2 : ℚ) ^ ((52 + dropped n : Nat) : Int) < 2 ^ (53 + exponent) :=
    calc (2 : ℚ) ^ ((52 + dropped n : Nat) : Int)
        ≤ ((n / 2 ^ dropped n * 2 ^ dropped n : Nat) : ℚ) := by
          rw [zpow_natCast]
          exact_mod_cast low
      _ < mantissa * 2 ^ exponent := above
      _ ≤ 2 ^ 53 * 2 ^ exponent := by
          gcongr
          exact_mod_cast short.le
      _ = 2 ^ (53 + exponent) := by rw [zpow_add₀ two_ne_zero]; rfl
  have coarse : ((52 + dropped n : Nat) : Int) < 53 + exponent :=
    (zpow_lt_zpow_iff_right₀ one_lt_two).mp large
  obtain ⟨more, rfl⟩ : ∃ more : Nat, exponent = dropped n + more :=
    ⟨(exponent - dropped n).toNat, by omega⟩
  have multiple : (mantissa * 2 ^ ((dropped n : Int) + more) : ℚ) =
      ((mantissa * 2 ^ more * 2 ^ dropped n : Nat) : ℚ) := by
    rw [← Nat.cast_add, zpow_natCast, pow_add]
    push_cast
    ring
  rw [multiple] at above ⊢
  have fewer := Nat.lt_of_mul_lt_mul_right (by exact_mod_cast above)
  exact_mod_cast Nat.mul_le_mul_right _ fewer

theorem rounded_cases (n : Nat) :
    (rounded n = n / 2 ^ dropped n * 2 ^ dropped n ∧ 2 * (n % 2 ^ dropped n) ≤ 2 ^ dropped n) ∨
      (rounded n = (n / 2 ^ dropped n + 1) * 2 ^ dropped n ∧
        2 ^ dropped n ≤ 2 * (n % 2 ^ dropped n)) := by
  unfold rounded count
  split
  · exact Or.inl ⟨rfl, by omega⟩
  · exact Or.inr ⟨rfl, by omega⟩

theorem cast_split (n : Nat) :
    (n : ℚ) = (n / 2 ^ dropped n * 2 ^ dropped n : Nat) + (n % 2 ^ dropped n : Nat) := by
  exact_mod_cast (Nat.div_add_mod' n (2 ^ dropped n)).symm

theorem cast_next (n : Nat) :
    (((n / 2 ^ dropped n + 1) * 2 ^ dropped n : Nat) : ℚ) =
      (n / 2 ^ dropped n * 2 ^ dropped n : Nat) + (2 ^ dropped n : Nat) := by
  rw [Nat.succ_mul, Nat.cast_add]

theorem distance_rounded_le (n : Nat) :
    |(rounded n : ℚ) - n| ≤ (n % 2 ^ dropped n : Nat) ∧
      |(rounded n : ℚ) - n| ≤ (2 ^ dropped n : Nat) - (n % 2 ^ dropped n : Nat) := by
  have below : ((n % 2 ^ dropped n : Nat) : ℚ) < (2 ^ dropped n : Nat) := by
    exact_mod_cast Nat.mod_lt n (Nat.two_pow_pos _)
  have least : (0 : ℚ) ≤ (n % 2 ^ dropped n : Nat) := Nat.cast_nonneg _
  rcases rounded_cases n with ⟨down, half⟩ | ⟨up, half⟩
  · have half : (2 : ℚ) * (n % 2 ^ dropped n : Nat) ≤ (2 ^ dropped n : Nat) := by
      exact_mod_cast half
    have distance : |(rounded n : ℚ) - n| = (n % 2 ^ dropped n : Nat) := by
      rw [down, abs_sub_comm, cast_split n, add_sub_cancel_left, abs_of_nonneg least]
    rw [distance]
    exact ⟨le_refl _, by linarith only [half]⟩
  · have half : ((2 ^ dropped n : Nat) : ℚ) ≤ 2 * (n % 2 ^ dropped n : Nat) := by
      exact_mod_cast half
    have distance : |(rounded n : ℚ) - n| = (2 ^ dropped n : Nat) - (n % 2 ^ dropped n : Nat) := by
      rw [up, cast_next, cast_split n, add_sub_add_left_eq_sub,
        abs_of_nonneg (sub_nonneg.mpr below.le)]
    rw [distance]
    exact ⟨by linarith only [half], le_refl _⟩

theorem rounded_nearest (short : mantissa < 2 ^ 53) :
    |(rounded n : ℚ) - n| ≤ |(mantissa * 2 ^ exponent : ℚ) - n| := by
  obtain ⟨lower, upper⟩ := distance_rounded_le n
  rcases Nat.le_total 52 n.log2 with long | few
  · rcases le_or_gt (mantissa * 2 ^ exponent : ℚ) (n / 2 ^ dropped n * 2 ^ dropped n : Nat) with
      beneath | above
    · calc |(rounded n : ℚ) - n|
          ≤ (n % 2 ^ dropped n : Nat) := lower
        _ ≤ -((mantissa * 2 ^ exponent : ℚ) - n) := by linarith only [beneath, cast_split n]
        _ ≤ |(mantissa * 2 ^ exponent : ℚ) - n| := neg_le_abs _
    · have beyond := succ_le_of_lt short above long
      rw [cast_next] at beyond
      calc |(rounded n : ℚ) - n|
          ≤ (2 ^ dropped n : Nat) - (n % 2 ^ dropped n : Nat) := upper
        _ ≤ (mantissa * 2 ^ exponent : ℚ) - n := by linarith only [beyond, cast_split n]
        _ ≤ |(mantissa * 2 ^ exponent : ℚ) - n| := le_abs_self _
  · rw [rounded_of_short few, sub_self, abs_zero]
    exact abs_nonneg _

/-- No number is nearer to an integer than the one it counts as. -/
theorem roundedInt_nearest {x : Float} {value : ℚ} (denotes : Denotes x value) (n : Int) :
    |(roundedInt n : ℚ) - n| ≤ |value - n| := by
  obtain ⟨negative, mantissa, exponent, finite, rfl⟩ := denotes
  have signed : (roundedInt n : ℚ) - n = n.sign * ((rounded n.natAbs : ℚ) - n.natAbs) := by
    have split : (n : ℚ) = n.sign * n.natAbs := by
      rw [← Int.cast_natCast, ← Int.cast_mul, Int.sign_mul_natAbs]
    rw [roundedInt, Int.cast_mul, Int.cast_natCast, mul_sub, ← split]
  have unit : |(n.sign : ℚ)| ≤ 1 := by
    rcases Int.sign_trichotomy n with one | zero | minus
    · simp [one]
    · simp [zero]
    · simp [minus]
  have size : |rational negative mantissa exponent| = mantissa * 2 ^ exponent := by
    have least : (0 : ℚ) ≤ mantissa * 2 ^ exponent := by positivity
    cases negative with
    | false => exact abs_of_nonneg least
    | true => exact (abs_neg _).trans (abs_of_nonneg least)
  calc |(roundedInt n : ℚ) - n|
      = |(n.sign : ℚ)| * |(rounded n.natAbs : ℚ) - n.natAbs| := by rw [signed, abs_mul]
    _ ≤ |(rounded n.natAbs : ℚ) - n.natAbs| := mul_le_of_le_one_left (abs_nonneg _) unit
    _ ≤ |(mantissa * 2 ^ exponent : ℚ) - n.natAbs| := rounded_nearest (mantissa_lt finite)
    _ = |(|rational negative mantissa exponent| - |(n : ℚ)|)| := by
      rw [size, Nat.cast_natAbs, Int.cast_abs]
    _ ≤ |rational negative mantissa exponent - n| := abs_abs_sub_abs_le_abs_sub _ _

theorem roundedInt_of_denotes {x : Float} {n : Int} (denotes : Denotes x n) : roundedInt n = n := by
  have distance := roundedInt_nearest denotes n
  rw [sub_self, abs_zero] at distance
  have same := sub_eq_zero.mp (abs_nonpos_iff.mp distance)
  exact_mod_cast same

theorem roundedInt_of_small {n : Int} (small : n.natAbs ≤ 2 ^ 53) : roundedInt n = n := by
  have whole : rounded n.natAbs = n.natAbs := by
    rcases Nat.lt_or_eq_of_le small with below | carried
    · apply rounded_of_short
      by_cases zero : n.natAbs = 0
      · rw [zero]
        decide
      · exact Nat.le_of_lt_succ ((Nat.log2_lt zero).mpr below)
    · rw [carried]
      decide +kernel
  rw [roundedInt, whole, Int.sign_mul_natAbs]

end Nearest

end Script8255.Binary64
