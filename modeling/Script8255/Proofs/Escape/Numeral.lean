import Mathlib.Data.List.Forall2
import Script8255.Proofs.Escape.Spelling

/-! Digits of a base, and the bounds of what they denote. -/

namespace Script8255.Escape

variable {base most n : Nat} {c : Char} {digits : List Char}

def IsDigit (base : Nat) (c : Char) : Prop := ∃ value < base, (c, value) ∈ digitValues

theorem digit_mem_of_isHex (hexadecimal : isHex c = true) :
    (c, digit c) ∈ digitValues ∧ digit c < 16 := by
  have each : ∀ n < 128, isHex (Char.ofNat n) = true →
      (Char.ofNat n, digit (Char.ofNat n)) ∈ digitValues ∧ digit (Char.ofNat n) < 16 := by decide
  have small : c.toNat < 128 := by
    simp only [isHex, Char.isDigit, Bool.or_eq_true, Bool.and_eq_true, decide_eq_true_eq,
      Char.le_def, UInt32.le_iff_toNat_le] at hexadecimal
    have known : c.toNat = c.val.toNat := rfl
    have last : '9'.val.toNat = 57 ∧ 'F'.val.toNat = 70 ∧ 'f'.val.toNat = 102 := ⟨rfl, rfl, rfl⟩
    omega
  have found := each c.toNat small
  rw [Char.ofNat_toNat] at found
  exact found hexadecimal

theorem isHex_iff : isHex c = true ↔ IsDigit 16 c := by
  constructor
  · intro hexadecimal
    obtain ⟨known, small⟩ := digit_mem_of_isHex hexadecimal
    exact ⟨_, small, known⟩
  · rintro ⟨value, -, known⟩
    exact (digit_of_mem known).2.1

theorem isOctal_iff : isOctal c = true ↔ IsDigit 8 c := by
  constructor
  · intro octal
    have known := (digit_mem_of_isHex (isHex_of_isOctal octal)).1
    have small := (digit_of_mem known).2.2
    rw [octal] at small
    exact ⟨_, of_decide_eq_true small.symm, known⟩
  · rintro ⟨value, small, known⟩
    rw [(digit_of_mem known).2.2]
    exact decide_eq_true small

theorem isDigit_iff : c.isDigit = true ↔ IsDigit 10 c := by
  have each : ∀ entry ∈ digitValues, entry.1.isDigit = decide (entry.2 < 10) := by decide
  constructor
  · intro decimal
    have known := (digit_mem_of_isHex (c := c) (by simp [isHex, decimal])).1
    have small := each _ known
    rw [decimal] at small
    exact ⟨_, of_decide_eq_true small.symm, known⟩
  · rintro ⟨value, small, known⟩
    rw [each _ known]
    exact decide_eq_true small

/-- What digits denote is what they accumulate to. -/
theorem numeral_code (all : ∀ c ∈ digits, IsDigit base c) :
    Numeral base digits (code base digits) := by
  have known : List.Forall₂ (fun c value => (c, value) ∈ digitValues ∧ value < base) digits
      (digits.map digit) := by
    induction digits with
    | nil => exact .nil
    | cons c later ih =>
      obtain ⟨⟨value, small, known⟩, others⟩ := List.forall_mem_cons.mp all
      rw [List.map_cons, (digit_of_mem known).1]
      exact .cons ⟨known, small⟩ (ih others)
  have numeral : Numeral base digits (Nat.ofDigits base (digits.map digit).reverse) :=
    ⟨_, known, rfl⟩
  rw [numeral.code_eq]
  exact numeral

theorem Numeral.unique {m : Nat} (first : Numeral base digits m) (second : Numeral base digits n) :
    m = n :=
  first.code_eq.symm.trans second.code_eq

theorem Numeral.isDigit (numeral : Numeral base digits n) : ∀ c ∈ digits, IsDigit base c := by
  intro c member
  obtain ⟨value, small, known⟩ := numeral.forall_digits c member
  exact ⟨value, small, known⟩

theorem Numeral.lt_pow (numeral : Numeral base digits n) (large : 1 < base) :
    n < base ^ digits.length := by
  obtain ⟨values, known, rfl⟩ := numeral
  have small : ∀ value ∈ values.reverse, value < base := by
    intro value member
    rw [List.mem_reverse] at member
    induction known with
    | nil => cases member
    | cons first _ ih =>
      rcases List.mem_cons.mp member with rfl | later
      · exact first.2
      · exact ih later
  have bounded := Nat.ofDigits_lt_base_pow_length large small
  rwa [List.length_reverse, ← known.length_eq] at bounded

theorem code_lt_pow (all : ∀ c ∈ digits, IsDigit base c) (within : digits.length ≤ most)
    (large : 1 < base) : code base digits < base ^ most :=
  Nat.lt_of_lt_of_le ((numeral_code all).lt_pow large)
    (Nat.pow_le_pow_right (Nat.zero_lt_of_lt large) within)

end Script8255.Escape
