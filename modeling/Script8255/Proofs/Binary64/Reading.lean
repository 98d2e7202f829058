import Script8255.Binary64.Shortest
import Script8255.Proofs.Binary64.Pattern

/-! Which decimals are read as a given floating-point number: those between the midpoints to its
neighbours. -/

namespace Script8255.Binary64

def magnitude (mantissa : Nat) (exponent : Int) : ℚ := mantissa * 2 ^ exponent

/-- Whether a number is nearer to a value than another one is. The even one of two that are equally
near counts as the nearer. -/
def Nearer (value number other : ℚ) (even : Prop) : Prop :=
  |value - number| < |value - other| ∨ |value - number| = |value - other| ∧ even

/-- A decimal is read as the number nearest to it. The exponent has no upper limit here, and what
is nearest to a number beyond the largest one is read as an infinity. -/
def ReadsAs (value : ℚ) (mantissa : Nat) (exponent : Int) : Prop :=
  ∀ (other : Nat) (shift : Int), other < 2 ^ 53 → -1074 ≤ shift →
    magnitude other shift ≠ magnitude mantissa exponent →
      Nearer value (magnitude mantissa exponent) (magnitude other shift) (mantissa % 2 = 0)

section Scales

variable {m n : Nat} {exponent : Int}

theorem magnitude_lt_iff : magnitude m exponent < magnitude n exponent ↔ m < n := by
  have positive : (0 : ℚ) < 2 ^ exponent := by positivity
  rw [magnitude, magnitude, mul_lt_mul_iff_left₀ positive, Nat.cast_lt]

theorem magnitude_le_iff : magnitude m exponent ≤ magnitude n exponent ↔ m ≤ n := by
  rw [← not_lt, magnitude_lt_iff, not_lt]

theorem magnitude_zero (exponent : Int) : magnitude 0 exponent = 0 := by
  rw [magnitude, Nat.cast_zero, zero_mul]

theorem magnitude_add (mantissa : Nat) (exponent : Int) (more : Nat) :
    magnitude mantissa (exponent + more) = magnitude (mantissa * 2 ^ more) exponent := by
  unfold magnitude
  rw [zpow_add₀ two_ne_zero, zpow_natCast]
  push_cast
  ring

theorem magnitude_quarters (mantissa : Nat) (exponent : Int) :
    magnitude mantissa exponent = magnitude (4 * mantissa) (exponent - 2) := by
  have quarters := magnitude_add mantissa (exponent - 2) 2
  rwa [Nat.cast_ofNat, sub_add_cancel, Nat.mul_comm] at quarters

end Scales

section Neighbours

variable {mantissa other : Nat} {exponent shift : Int}

theorem Proper.of_finer (proper : Proper mantissa exponent) (low : -1074 ≤ shift)
    (finer : shift < exponent) :
    2 ^ 52 ≤ mantissa ∧ ∃ more : Nat, exponent = shift + (more + 1 : Nat) := by
  refine ⟨?_, (exponent - shift - 1).toNat, by omega⟩
  by_contra few
  have least := proper.full (not_le.mp few)
  omega

theorem succ_magnitude_le (proper : Proper mantissa exponent) (short : other < 2 ^ 53)
    (low : -1074 ≤ shift) (above : magnitude mantissa exponent < magnitude other shift) :
    magnitude (mantissa + 1) exponent ≤ magnitude other shift := by
  rcases le_or_gt exponent shift with coarser | finer
  · obtain ⟨more, rfl⟩ : ∃ more : Nat, shift = exponent + more :=
      ⟨(shift - exponent).toNat, by omega⟩
    rw [magnitude_add, magnitude_lt_iff] at above
    rw [magnitude_add, magnitude_le_iff]
    exact above
  · obtain ⟨full, more, rfl⟩ := proper.of_finer low finer
    have wider : 2 ^ 52 * 2 ≤ mantissa * 2 ^ (more + 1) :=
      Nat.mul_le_mul full (Nat.le_pow (Nat.succ_pos more))
    rw [magnitude_add, magnitude_lt_iff] at above
    omega

/-- The distance to the midpoint below, in quarters of the last digit. Below a power of two the
next number is nearer. -/
def below (mantissa : Nat) (exponent : Int) : Nat :=
  if mantissa = 2 ^ 52 ∧ -1074 < exponent then 1 else 2

theorem le_previous (proper : Proper mantissa exponent) (short : other < 2 ^ 53)
    (low : -1074 ≤ shift) (beneath : magnitude other shift < magnitude mantissa exponent) :
    magnitude other shift ≤
      magnitude (4 * mantissa - 2 * below mantissa exponent) (exponent - 2) := by
  rcases le_or_gt exponent shift with coarser | finer
  · obtain ⟨more, rfl⟩ : ∃ more : Nat, shift = exponent + more :=
      ⟨(shift - exponent).toNat, by omega⟩
    rw [magnitude_add, magnitude_lt_iff] at beneath
    rw [magnitude_add, magnitude_quarters, magnitude_le_iff, below]
    split <;> omega
  · obtain ⟨full, more, rfl⟩ := proper.of_finer low finer
    have twice :
        4 * other ≤ (4 * mantissa - 2 * below mantissa (shift + (more + 1 : Nat))) * 2 := by
      unfold below
      split <;> omega
    have moved : shift + (more + 1 : Nat) - 2 = shift - 2 + (more + 1 : Nat) := by omega
    rw [moved, magnitude_quarters, magnitude_add, magnitude_le_iff]
    exact twice.trans (Nat.mul_le_mul_left _ (Nat.le_pow (Nat.succ_pos more)))

theorem exists_previous (proper : Proper mantissa exponent) (positive : 0 < mantissa) :
    ∃ other shift, other < 2 ^ 53 ∧ -1074 ≤ shift ∧
      magnitude other shift =
        magnitude (4 * mantissa - 2 * below mantissa exponent) (exponent - 2) := by
  have short := proper.short
  by_cases power : mantissa = 2 ^ 52 ∧ -1074 < exponent
  · obtain ⟨rfl, above⟩ := power
    have finer : exponent - 1 = exponent - 2 + (1 : Nat) := by omega
    refine ⟨2 ^ 53 - 1, exponent - 1, by decide, by omega, ?_⟩
    rw [below, if_pos ⟨rfl, above⟩, finer, magnitude_add]
    rfl
  · refine ⟨mantissa - 1, exponent, by omega, proper.low, ?_⟩
    rw [below, if_neg power, magnitude_quarters]
    congr 1
    omega

theorem exists_next (proper : Proper mantissa exponent) :
    ∃ other shift, other < 2 ^ 53 ∧ -1074 ≤ shift ∧
      magnitude other shift = magnitude (mantissa + 1) exponent := by
  have low := proper.low
  rcases Nat.lt_or_ge (mantissa + 1) (2 ^ 53) with short | carried
  · exact ⟨mantissa + 1, exponent, short, low, rfl⟩
  · have full : mantissa + 1 = 2 ^ 52 * 2 ^ 1 := by
      have short := proper.short
      omega
    refine ⟨2 ^ 52, exponent + 1, by decide, by omega, ?_⟩
    rw [full, ← magnitude_add, Nat.cast_one]

theorem Proper.unique (proper : Proper mantissa exponent) (same : Proper other shift)
    (equal : magnitude mantissa exponent = magnitude other shift) :
    mantissa = other ∧ exponent = shift := by
  have ordered {mantissa other : Nat} {exponent shift : Int} (proper : Proper mantissa exponent)
      (same : Proper other shift) (equal : magnitude mantissa exponent = magnitude other shift) :
      exponent ≤ shift := by
    by_contra coarser
    obtain ⟨full, more, rfl⟩ := proper.of_finer same.low (not_le.mp coarser)
    have wider : 2 ^ 52 * 2 ≤ mantissa * 2 ^ (more + 1) :=
      Nat.mul_le_mul full (Nat.le_pow (Nat.succ_pos more))
    have short := same.short
    have above := magnitude_le_iff.mp (magnitude_add _ _ _ ▸ equal).le
    omega
  obtain rfl := le_antisymm (ordered proper same equal) (ordered same proper equal.symm)
  exact ⟨le_antisymm (magnitude_le_iff.mp equal.le) (magnitude_le_iff.mp equal.ge), rfl⟩

end Neighbours

section Intervals

variable {mantissa other : Nat} {exponent shift : Int} {value number near : ℚ} {even : Prop}

theorem nearer_iff_of_lt (less : near < number) :
    Nearer value number near even ↔
      near + number < 2 * value ∨ near + number = 2 * value ∧ even := by
  have strict : |value - number| < |value - near| ↔ near + number < 2 * value := by
    constructor <;> intro closer <;> cases abs_cases (value - number) <;>
      cases abs_cases (value - near) <;> linarith
  have tied : |value - number| = |value - near| ↔ near + number = 2 * value := by
    constructor <;> intro equal <;> cases abs_cases (value - number) <;>
      cases abs_cases (value - near) <;> linarith
  rw [Nearer, strict, tied]

theorem nearer_iff_of_gt (greater : number < near) :
    Nearer value number near even ↔
      2 * value < number + near ∨ 2 * value = number + near ∧ even := by
  have strict : |value - number| < |value - near| ↔ 2 * value < number + near := by
    constructor <;> intro closer <;> cases abs_cases (value - number) <;>
      cases abs_cases (value - near) <;> linarith
  have tied : |value - number| = |value - near| ↔ 2 * value = number + near := by
    constructor <;> intro equal <;> cases abs_cases (value - number) <;>
      cases abs_cases (value - near) <;> linarith
  rw [Nearer, strict, tied]

/-- The values between the midpoints to the neighbours, with the midpoints if the mantissa is
even. -/
def Within (mantissa : Nat) (exponent : Int) (value : ℚ) : Prop :=
  (magnitude (4 * mantissa - below mantissa exponent) (exponent - 2) < value ∨
      magnitude (4 * mantissa - below mantissa exponent) (exponent - 2) = value ∧
        mantissa % 2 = 0) ∧
    (value < magnitude (4 * mantissa + 2) (exponent - 2) ∨
      value = magnitude (4 * mantissa + 2) (exponent - 2) ∧ mantissa % 2 = 0)

theorem midpoint_below (positive : 0 < mantissa) (exponent : Int) :
    magnitude (4 * mantissa - 2 * below mantissa exponent) (exponent - 2) +
        magnitude mantissa exponent =
      2 * magnitude (4 * mantissa - below mantissa exponent) (exponent - 2) := by
  have inside : 2 * below mantissa exponent ≤ 4 * mantissa := by
    unfold below
    split <;> omega
  have half : below mantissa exponent ≤ 4 * mantissa := by omega
  rw [magnitude_quarters mantissa]
  unfold magnitude
  rw [Nat.cast_sub inside, Nat.cast_sub half]
  push_cast
  ring

theorem midpoint_above (mantissa : Nat) (exponent : Int) :
    magnitude mantissa exponent + magnitude (mantissa + 1) exponent =
      2 * magnitude (4 * mantissa + 2) (exponent - 2) := by
  rw [magnitude_quarters mantissa, magnitude_quarters (mantissa + 1)]
  unfold magnitude
  push_cast
  ring

theorem readsAs_iff_within (proper : Proper mantissa exponent) (positive : 0 < mantissa) :
    ReadsAs value mantissa exponent ↔ Within mantissa exponent value := by
  have lower := midpoint_below positive exponent
  have upper := midpoint_above mantissa exponent
  constructor
  · intro reads
    constructor
    · obtain ⟨other, shift, short, low, next⟩ := exists_previous proper positive
      have less : magnitude other shift < magnitude mantissa exponent := by
        rw [next, magnitude_quarters mantissa, magnitude_lt_iff, below]
        split <;> omega
      have nearer := (nearer_iff_of_lt less).mp (reads other shift short low less.ne)
      rw [next, lower] at nearer
      exact nearer.imp (fun strict => by linarith) fun ⟨tied, even⟩ => ⟨by linarith, even⟩
    · obtain ⟨other, shift, short, low, next⟩ := exists_next proper
      have greater : magnitude mantissa exponent < magnitude other shift := by
        rw [next, magnitude_lt_iff]
        exact Nat.lt_succ_self _
      have nearer := (nearer_iff_of_gt greater).mp (reads other shift short low greater.ne')
      rw [next, upper] at nearer
      exact nearer.imp (fun strict => by linarith) fun ⟨tied, even⟩ => ⟨by linarith, even⟩
  · rintro ⟨above, beneath⟩ other shift short low apart
    rcases lt_or_gt_of_ne apart with less | greater
    · have previous := le_previous proper short low less
      rw [nearer_iff_of_lt less]
      rcases above with strict | ⟨tied, even⟩
      · exact Or.inl (by linarith)
      · exact (lt_or_eq_of_le (by linarith)).imp_right fun equal => ⟨equal, even⟩
    · have next := succ_magnitude_le proper short low greater
      rw [nearer_iff_of_gt greater]
      rcases beneath with strict | ⟨tied, even⟩
      · exact Or.inl (by linarith)
      · exact (lt_or_eq_of_le (by linarith)).imp_right fun equal => ⟨equal, even⟩

theorem Within.between {low high : ℚ} (above : Within mantissa exponent low)
    (beneath : Within mantissa exponent high) (least : low ≤ value) (most : value ≤ high) :
    Within mantissa exponent value := by
  constructor
  · rcases above.1 with strict | ⟨tied, even⟩
    · exact Or.inl (strict.trans_le least)
    · exact (lt_or_eq_of_le (tied.trans_le least)).imp_right fun equal => ⟨equal, even⟩
  · rcases beneath.2 with strict | ⟨tied, even⟩
    · exact Or.inl (most.trans_lt strict)
    · exact (lt_or_eq_of_le (most.trans_eq tied)).imp_right fun equal => ⟨equal, even⟩

theorem Within.pos (within : Within mantissa exponent value) (positive : 0 < mantissa) :
    0 < value := by
  have low : magnitude 0 (exponent - 2) <
      magnitude (4 * mantissa - below mantissa exponent) (exponent - 2) := by
    rw [magnitude_lt_iff, below]
    split <;> omega
  rw [magnitude_zero] at low
  exact low.trans_le (within.1.elim le_of_lt fun tied => tied.1.le)

theorem within_self (positive : 0 < mantissa) (exponent : Int) :
    Within mantissa exponent (magnitude mantissa exponent) := by
  rw [Within, magnitude_quarters mantissa, magnitude_lt_iff, magnitude_lt_iff, below]
  constructor <;> left
  · split <;> omega
  · omega

theorem readsAs_zero : ReadsAs 0 0 (-1074) := by
  intro other shift _ _ apart
  left
  rw [magnitude_zero] at apart ⊢
  rw [sub_zero, abs_zero, zero_sub, abs_neg]
  exact abs_pos.mpr apart

/-- A decimal is read as one number only. Between two even mantissas there is an odd one. -/
theorem ReadsAs.unique (proper : Proper mantissa exponent) (same : Proper other shift)
    (reads : ReadsAs value mantissa exponent) (rereads : ReadsAs value other shift) :
    mantissa = other ∧ exponent = shift := by
  have ordered {mantissa other : Nat} {exponent shift : Int} (proper : Proper mantissa exponent)
      (same : Proper other shift) (reads : ReadsAs value mantissa exponent)
      (rereads : ReadsAs value other shift) :
      ¬magnitude mantissa exponent < magnitude other shift := by
    intro less
    have first := (nearer_iff_of_gt less).mp (reads other shift same.short same.low less.ne')
    have second :=
      (nearer_iff_of_lt less).mp (rereads mantissa exponent proper.short proper.low less.ne)
    have tied : 2 * value = magnitude mantissa exponent + magnitude other shift ∧
        mantissa % 2 = 0 ∧ other % 2 = 0 := by
      rcases first with strict | ⟨tied, even⟩ <;> rcases second with stricter | ⟨equal, also⟩
      · linarith
      · linarith
      · linarith
      · exact ⟨tied, even, also⟩
    obtain ⟨middle, even, also⟩ := tied
    have short : mantissa + 1 < 2 ^ 53 := by
      have limit := proper.short
      omega
    have inner : magnitude mantissa exponent < magnitude (mantissa + 1) exponent :=
      magnitude_lt_iff.mpr (Nat.lt_succ_self _)
    rcases lt_or_eq_of_le (succ_magnitude_le proper same.short same.low less) with between | equal
    · have nearer := (nearer_iff_of_gt inner).mp
        (reads (mantissa + 1) exponent short proper.low inner.ne')
      rcases nearer with strict | ⟨again, -⟩ <;> linarith
    · have form : Proper (mantissa + 1) exponent :=
        ⟨short, proper.low, fun few => proper.full (Nat.lt_of_succ_lt few)⟩
      have odd := (form.unique same equal).1
      omega
  exact proper.unique same (le_antisymm (not_lt.mp (ordered same proper rereads reads))
    (not_lt.mp (ordered proper same reads rereads)))

end Intervals

end Script8255.Binary64
