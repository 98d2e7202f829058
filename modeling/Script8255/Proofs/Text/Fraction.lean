import Mathlib
import Script8255.Proofs.Decimal

/-! Numbers in decimal with a fraction and an exponent, and what they denote. -/

namespace Script8255

namespace Escape

section Numerals

variable {base m n : Nat} {front back digits : List Char}

theorem Numeral.append (first : Numeral base front m) (second : Numeral base back n) :
    Numeral base (front ++ back) (m * base ^ back.length + n) := by
  obtain ⟨left, known, rfl⟩ := first
  obtain ⟨right, others, rfl⟩ := second
  refine ⟨left ++ right, List.rel_append known others, ?_⟩
  rw [List.reverse_append, Nat.ofDigits_append, List.length_reverse, others.length_eq]
  ring

theorem Numeral.split (numeral : Numeral base (front ++ back) n) :
    ∃ high low, Numeral base front high ∧ Numeral base back low ∧
      n = high * base ^ back.length + low := by
  obtain ⟨left, right⟩ := List.forall_mem_append.mp numeral.isDigit
  have joined := (numeral_code left).append (numeral_code right)
  exact ⟨_, _, numeral_code left, numeral_code right, numeral.unique joined⟩

theorem numeral_zeros (positive : 0 < base) (count : Nat) :
    Numeral base (List.replicate count '0') 0 := by
  have known : List.Forall₂ (fun c value => (c, value) ∈ digitValues ∧ value < base)
      (List.replicate count '0') (List.replicate count 0) := by
    induction count with
    | zero => exact .nil
    | succ count ih => exact .cons ⟨by decide, positive⟩ ih
  refine ⟨_, known, ?_⟩
  rw [List.reverse_replicate, Nat.ofDigits_replicate_zero]

end Numerals

end Escape

namespace Text

section Denoting

inductive Fixed : List Char → ℚ → Prop
  | whole {digits : List Char} {n : Nat} : Natural digits n → Fixed digits n
  | pointed {before after : List Char} {n k : Nat} : Natural before n → Natural after k →
    Fixed (before ++ '.' :: after) (n + k / 10 ^ after.length)

/-- Digits with a decimal point, times a power of ten. Either may be left out. -/
inductive Scaled : List Char → ℚ → Prop
  | fixed {text : List Char} {value : ℚ} : Fixed text value → Scaled text value
  | exponent {text power : List Char} {value : ℚ} {n : Int} : Fixed text value → Signed power n →
    Scaled (text ++ 'e' :: power) (value * 10 ^ n)

inductive Written : List Char → Bool → ℚ → Prop
  | plain {text : List Char} {value : ℚ} : Scaled text value → Written text false value
  | minus {text : List Char} {value : ℚ} : Scaled text value → Written ('-' :: text) true value

variable {text digits : List Char} {value other : ℚ} {n k : Nat} {negative flipped : Bool}

theorem natural_toDigits (n : Nat) : Natural (Nat.toDigits 10 n) n :=
  natural?_eq_some_iff.mp (natural?_toDigits n)

theorem Natural.unique (first : Natural digits n) (second : Natural digits k) : n = k :=
  first.numeral.unique second.numeral

theorem Fixed.decimal (fixed : Fixed text value) {c : Char} (member : c ∈ text) :
    c.isDigit = true ∨ c = '.' := by
  cases fixed with
  | whole natural => exact Or.inl (natural.decimal member)
  | pointed natural fraction =>
    rcases List.mem_append.mp member with front | back
    · exact Or.inl (natural.decimal front)
    · rcases List.mem_cons.mp back with point | rest
      · exact Or.inr point
      · exact Or.inl (fraction.decimal rest)

theorem Fixed.not_mem (fixed : Fixed text value) {c : Char} (other : c.isDigit = false)
    (apart : c ≠ '.') : c ∉ text := by
  intro member
  rcases fixed.decimal member with digit | point
  · exact Bool.false_ne_true (other.symm.trans digit)
  · exact apart point

theorem Fixed.unique (first : Fixed text value) (second : Fixed text other) : value = other := by
  generalize copy : text = again at second
  cases first with
  | whole natural =>
    cases second with
    | whole same =>
      subst copy
      rw [natural.unique same]
    | pointed => exact absurd (copy ▸ List.mem_append_cons_self) (natural.no_sign rfl)
  | pointed natural fraction =>
    cases second with
    | whole same => exact absurd (copy ▸ List.mem_append_cons_self) (same.no_sign rfl)
    | pointed same also =>
      obtain ⟨rfl, -, rfl⟩ := (List.append_cons_inj_of_notMem (same.no_sign rfl)
        (also.no_sign rfl)).mp copy.symm
      rw [natural.unique same, fraction.unique also]

theorem Signed.unique {m n : Int} (first : Signed text m) (second : Signed text n) : m = n :=
  Option.some.inj ((signed?_eq_some_iff.mpr first).symm.trans (signed?_eq_some_iff.mpr second))

theorem Signed.not_mem {n : Int} (signed : Signed text n) {c : Char} (other : c.isDigit = false)
    (minus : c ≠ '-') (plus : c ≠ '+') : c ∉ text := by
  cases signed with
  | plus natural => exact List.not_mem_cons_of_ne_of_not_mem plus (natural.no_sign other)
  | integer integer =>
    cases integer with
    | plain natural => exact natural.no_sign other
    | minus natural => exact List.not_mem_cons_of_ne_of_not_mem minus (natural.no_sign other)

theorem Scaled.unique (first : Scaled text value) (second : Scaled text other) :
    value = other := by
  generalize copy : text = again at second
  cases first with
  | fixed fixed =>
    cases second with
    | fixed same =>
      subst copy
      exact fixed.unique same
    | exponent =>
      exact absurd (copy ▸ List.mem_append_cons_self) (fixed.not_mem rfl (by decide))
  | exponent fixed power =>
    cases second with
    | fixed same => exact absurd (copy ▸ List.mem_append_cons_self) (same.not_mem rfl (by decide))
    | exponent same also =>
      obtain ⟨rfl, -, rfl⟩ := (List.append_cons_inj_of_notMem (same.not_mem rfl (by decide))
        (also.not_mem rfl (by decide) (by decide))).mp copy.symm
      rw [fixed.unique same, power.unique also]

theorem Scaled.head?_ne (scaled : Scaled text value) : text.head? ≠ some '-' := by
  have unsigned {front : List Char} {worth : ℚ} (fixed : Fixed front worth) :
      front.head? ≠ some '-' := fun minus =>
    fixed.not_mem rfl (by decide) (List.mem_of_mem_head? minus)
  have filled {front : List Char} {worth : ℚ} (fixed : Fixed front worth) : front ≠ [] := by
    cases fixed with
    | whole natural => exact natural.filled
    | pointed => exact List.append_ne_nil_of_right_ne_nil _ (List.cons_ne_nil _ _)
  cases scaled with
  | fixed fixed => exact unsigned fixed
  | exponent fixed power =>
    rw [List.head?_append_of_ne_nil _ (filled fixed)]
    exact unsigned fixed

/-- A text denotes one number, and has one sign. -/
theorem Written.unique (first : Written text negative value) (second : Written text flipped other) :
    negative = flipped ∧ value = other := by
  cases first with
  | plain scaled =>
    cases second with
    | plain same => exact ⟨rfl, scaled.unique same⟩
    | minus => exact absurd rfl scaled.head?_ne
  | minus scaled =>
    cases second with
    | plain same => exact absurd rfl same.head?_ne
    | minus same => exact ⟨rfl, scaled.unique same⟩

end Denoting

section Integers

variable {text : List Char} {n : Int}

theorem Padded.mem (padded : Padded text n) {c : Char} (member : c ∈ text) :
    isBlank c = true ∨ c.isDigit = true ∨ c = '-' ∨ c = '+' := by
  obtain ⟨before, number, after, rfl, start, finish, signed⟩ := padded
  rcases List.mem_append.mp member with front | back
  · rcases List.mem_append.mp front with space | inner
    · exact Or.inl (start c space)
    · right
      by_contra other
      simp only [not_or, Bool.not_eq_true] at other
      exact signed.not_mem other.1 other.2.1 other.2.2 inner
  · exact Or.inl (finish c back)

end Integers

end Text

end Script8255
