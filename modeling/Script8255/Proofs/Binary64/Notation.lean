import Script8255.Binary64.Notation
import Script8255.Proofs.Binary64.Shortest
import Script8255.Proofs.Text.Fraction

/-! The notations of floating-point numbers denote what their digits and exponent do. -/

namespace Script8255

namespace Text

section Points

variable {text before after : List Char} {value : ℚ} {n k : Nat}

theorem Fixed.with_point (fixed : Fixed text value) :
    Fixed (if text.contains '.' then text else text ++ ['.', '0']) value ∧
      '.' ∈ if text.contains '.' then text else text ++ ['.', '0'] := by
  by_cases shown : text.contains '.' = true
  · rw [if_pos shown]
    exact ⟨fixed, List.contains_iff_mem.mp shown⟩
  · rw [if_neg shown]
    refine ⟨?_, List.mem_append_cons_self⟩
    cases fixed with
    | whole natural =>
      have widened := Fixed.pointed natural (natural_toDigits 0)
      rwa [Nat.cast_zero, zero_div, add_zero] at widened
    | pointed => exact absurd (List.contains_iff_mem.mpr List.mem_append_cons_self) shown

theorem fixed_of_split (front : before ≠ []) (back : after ≠ [])
    (numeral : Escape.Numeral 10 (before ++ after) n) :
    Fixed (before ++ '.' :: after) (n / 10 ^ after.length) := by
  obtain ⟨high, low, first, second, rfl⟩ := numeral.split
  have nonzero : (10 : ℚ) ^ after.length ≠ 0 := by positivity
  have parts : (((high * 10 ^ after.length + low : Nat) : ℚ) / 10 ^ after.length) =
      high + low / 10 ^ after.length := by
    push_cast
    rw [add_div, mul_div_cancel_right₀ _ nonzero]
  rw [parts]
  exact .pointed ⟨front, first⟩ ⟨back, second⟩

end Points

end Text

namespace Binary64

open Text

section Scientific

variable {scientific : Scientific} {n : Nat}

/-- What digits that denote `n` come to, when the first one counts the power of ten. -/
def Scientific.worth (scientific : Scientific) (n : Nat) : ℚ :=
  n * 10 ^ (scientific.exponent + 1 - scientific.digits.length)

theorem worth_eq_mul {count : Nat}
    (amount : scientific.exponent + 1 - scientific.digits.length = count) :
    scientific.worth n = ((n * 10 ^ count : Nat) : ℚ) := by
  rw [Scientific.worth, amount, zpow_natCast]
  push_cast
  rfl

theorem worth_eq_div {count : Nat}
    (amount : scientific.exponent + 1 - scientific.digits.length = -count) :
    scientific.worth n = n / 10 ^ count := by
  rw [Scientific.worth, amount, zpow_neg, zpow_natCast, div_eq_mul_inv]

theorem Scientific.positional_denotes (natural : Natural scientific.digits n) :
    Fixed scientific.positional (scientific.worth n) := by
  obtain ⟨filled, numeral⟩ := natural
  have zeros (count : Nat) : Escape.Numeral 10 (List.replicate count '0') 0 :=
    Escape.numeral_zeros (by decide) count
  unfold positional
  split
  next small =>
    let count := (-scientific.exponent - 1).toNat
    have amount : scientific.exponent + 1 - scientific.digits.length =
        -((List.replicate count '0' ++ scientific.digits).length : Nat) := by
      rw [List.length_append, List.length_replicate]
      omega
    have whole := (zeros 1).append ((zeros count).append numeral)
    have split := fixed_of_split (List.cons_ne_nil '0' [])
      (List.append_ne_nil_of_right_ne_nil (List.replicate count '0') filled) whole
    rw [Nat.zero_mul, Nat.zero_mul, Nat.zero_add, Nat.zero_add] at split
    rw [worth_eq_div amount]
    exact split
  next large =>
    let wide := scientific.exponent.toNat + 1
    dsimp only
    split
    next ended =>
      have short : scientific.digits.length ≤ wide := List.drop_eq_nil_iff.mp ended
      have amount : scientific.exponent + 1 - scientific.digits.length =
          (wide - scientific.digits.length : Nat) := by omega
      have padded := numeral.append (zeros (wide - scientific.digits.length))
      rw [Nat.add_zero, List.length_replicate] at padded
      rw [List.take_of_length_le short, worth_eq_mul amount]
      exact .whole ⟨List.append_ne_nil_of_left_ne_nil filled _, padded⟩
    next fraction further =>
      have long : wide < scientific.digits.length := by
        by_contra short
        exact further (List.drop_eq_nil_iff.mpr (not_lt.mp short))
      have front : scientific.digits.take wide ≠ [] := by
        rw [ne_eq, List.take_eq_nil_iff]
        exact not_or.mpr ⟨Nat.succ_ne_zero _, filled⟩
      have amount : scientific.exponent + 1 - scientific.digits.length =
          -((scientific.digits.drop wide).length : Nat) := by
        rw [List.length_drop]
        omega
      rw [← List.take_append_drop wide scientific.digits] at numeral
      rw [Nat.sub_eq_zero_of_le long.le, List.replicate_zero, List.append_nil, worth_eq_div amount]
      exact fixed_of_split front further numeral

theorem pointed_denotes (digits : List Char) :
    Natural digits n →
      Fixed
        (match digits with
          | first :: second :: rest => first :: '.' :: second :: rest
          | digits => digits)
        (n / 10 ^ (digits.length - 1)) := by
  rintro ⟨filled, numeral⟩
  cases digits with
  | nil => exact absurd rfl filled
  | cons first others =>
    cases others with
    | nil =>
      rw [List.length_singleton, Nat.sub_self, pow_zero, div_one]
      exact .whole ⟨List.cons_ne_nil _ _, numeral⟩
    | cons second rest =>
      exact fixed_of_split (List.cons_ne_nil first []) (List.cons_ne_nil second rest) numeral

theorem signed_power (power : Int) (count : Nat) :
    Signed ((if power < 0 then '-' else '+') ::
      (List.replicate count '0' ++ Nat.toDigits 10 power.natAbs)) power := by
  have digits := natural_toDigits power.natAbs
  have padded := (Escape.numeral_zeros (by decide) count).append digits.numeral
  rw [Nat.zero_mul, Nat.zero_add] at padded
  have natural : Natural _ power.natAbs :=
    ⟨List.append_ne_nil_of_right_ne_nil (List.replicate count '0') digits.filled, padded⟩
  split
  next negative =>
    have minus := Signed.integer (.minus natural)
    rwa [Int.ofNat_natAbs_of_nonpos negative.le, neg_neg] at minus
  next other =>
    have plus := Signed.plus natural
    rwa [Int.natAbs_of_nonneg (not_lt.mp other)] at plus

theorem Scientific.exponential_denotes (natural : Natural scientific.digits n) :
    Scaled scientific.exponential (scientific.worth n) := by
  have scaled := Scaled.exponent (pointed_denotes _ natural) (signed_power scientific.exponent
    (2 - (Nat.toDigits 10 scientific.exponent.natAbs).length))
  have worth : (n / 10 ^ (scientific.digits.length - 1) * 10 ^ scientific.exponent : ℚ) =
      scientific.worth n := by
    have filled : 0 < scientific.digits.length := List.length_pos_of_ne_nil natural.filled
    have amount : scientific.exponent + 1 - scientific.digits.length =
        -((scientific.digits.length - 1 : Nat) : Int) + scientific.exponent := by omega
    rw [Scientific.worth, amount, zpow_add₀ (by norm_num), zpow_neg, zpow_natCast,
      div_eq_mul_inv, mul_assoc]
  rw [worth] at scaled
  unfold exponential
  rw [List.append_assoc]
  exact scaled

theorem Scientific.display_denotes (natural : Natural scientific.digits n) :
    Scaled scientific.display (scientific.worth n) ∧
      ('.' ∈ scientific.display ∨ 'e' ∈ scientific.display) := by
  unfold display
  split
  · have pointed := (positional_denotes natural).with_point
    exact ⟨.fixed pointed.1, Or.inl pointed.2⟩
  · refine ⟨exponential_denotes natural, Or.inr ?_⟩
    unfold exponential
    simp

theorem exists_trailing_zeros (digits : List Char) :
    ∃ count,
      (digits.reverse.dropWhile (· == '0')).reverse ++ List.replicate count '0' = digits := by
  let zeros := digits.reverse.takeWhile (· == '0')
  have all : zeros = List.replicate zeros.length '0' :=
    List.eq_replicate_iff.mpr ⟨rfl, fun c member =>
      beq_iff_eq.mp (List.all_eq_true.mp List.all_takeWhile c member)⟩
  refine ⟨zeros.length, ?_⟩
  rw [← List.reverse_replicate, ← all, ← List.reverse_append, List.takeWhile_append_dropWhile,
    List.reverse_reverse]

/-- To leave out zeros at the end does not change what a number denotes. -/
theorem Decimal.scientific_denotes {decimal : Decimal} (positive : 0 < decimal.digits) :
    ∃ n, Natural decimal.scientific.digits n ∧ decimal.scientific.worth n = decimal.value := by
  obtain ⟨count, whole⟩ := exists_trailing_zeros (Nat.toDigits 10 decimal.digits)
  change decimal.scientific.digits ++ _ = _ at whole
  have digits := natural_toDigits decimal.digits
  obtain ⟨high, low, first, second, sum⟩ := (whole.symm ▸ digits.numeral).split
  obtain rfl := second.unique (Escape.numeral_zeros (by decide) count)
  rw [Nat.add_zero, List.length_replicate] at sum
  refine ⟨high, ⟨?_, first⟩, ?_⟩
  · intro nothing
    rw [nothing] at first
    have zero : high = 0 := first.unique ⟨[], .nil, rfl⟩
    rw [zero, Nat.zero_mul] at sum
    omega
  · have lengths := congrArg List.length whole
    rw [List.length_append, List.length_replicate] at lengths
    have amount : decimal.scientific.exponent + 1 - decimal.scientific.digits.length =
        count + decimal.power := by
      change decimal.power + (Nat.toDigits 10 decimal.digits).length - 1 + 1 - _ = _
      omega
    have scaled : (decimal.digits : ℚ) = high * 10 ^ count := by exact_mod_cast sum
    rw [Scientific.worth, amount, value, scaled, zpow_add₀ (by norm_num), zpow_natCast, mul_assoc]

end Scientific

end Binary64

end Script8255
