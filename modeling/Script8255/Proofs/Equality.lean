import Script8255.Proofs.Binary64.Nearest
import Script8255.Proofs.Comparison

/-! When a comparison finds values equal, and how far their equality carries. -/

namespace Script8255.Value

open Binary64

section Worth

/-- What a value counts as among the numbers. An integer is rounded, and a string is no number. -/
def worth? (value : Value) : Option (WithBot (WithTop ℚ)) :=
  value.toFloat?.bind fun x => (number x).extended?

theorem worth?_int (n : Int64) :
    (int n).worth? = some ↑(↑(roundedInt n.toInt : ℚ) : WithTop ℚ) := extended?_ofWord n

variable {a b c : Value} {worth : WithBot (WithTop ℚ)}

theorem compare?_eq_iff {x y : Float} :
    compare? x y = some .eq ↔
      ∃ worth, (number x).extended? = some worth ∧ (number y).extended? = some worth := by
  rw [compare?_eq_some_iff]
  constructor
  · rintro ⟨worth, other, left, right, same⟩
    obtain rfl : worth = other := same
    exact ⟨worth, left, right⟩
  · rintro ⟨worth, left, right⟩
    exact ⟨worth, worth, left, right, rfl⟩

theorem eq_or_worth_of_equals (equal : a.equals b = true) :
    a = b ∨ ∃ worth, a.worth? = some worth ∧ b.worth? = some worth := by
  cases a <;> cases b <;> simp only [equals, toFloat?, beq_iff_eq, Bool.false_eq_true] at equal
  case int.int => exact Or.inl (congrArg int equal)
  case str.str => exact Or.inl (congrArg str equal)
  all_goals exact Or.inr (compare?_eq_iff.mp equal)

theorem equals_or_apart_of_worth (left : a.worth? = some worth) (right : b.worth? = some worth) :
    a.equals b = true ∨ ∃ m n, a = int m ∧ b = int n ∧ m ≠ n := by
  cases a with
  | str => cases left
  | int m =>
    cases b with
    | str => cases right
    | int n =>
      by_cases same : m = n
      · exact Or.inl (beq_iff_eq.mpr same)
      · exact Or.inr ⟨m, n, rfl, rfl, same⟩
    | float y => exact Or.inl (beq_iff_eq.mpr (compare?_eq_iff.mpr ⟨worth, left, right⟩))
  | float x =>
    cases b with
    | str => cases right
    | int n => exact Or.inl (beq_iff_eq.mpr (compare?_eq_iff.mpr ⟨worth, left, right⟩))
    | float y => exact Or.inl (beq_iff_eq.mpr (compare?_eq_iff.mpr ⟨worth, left, right⟩))

theorem equals_iff_worth (kinds : a.kind ≠ b.kind) :
    a.equals b = true ↔ ∃ worth, a.worth? = some worth ∧ b.worth? = some worth := by
  constructor
  · intro equal
    rcases eq_or_worth_of_equals equal with rfl | counted
    · exact absurd rfl kinds
    · exact counted
  · rintro ⟨worth, left, right⟩
    rcases equals_or_apart_of_worth left right with equal | ⟨m, n, rfl, rfl, -⟩
    · exact equal
    · exact absurd rfl kinds

theorem equals_trans (first : a.equals b = true) (second : b.equals c = true) :
    a.equals c = true ∨ ∃ m x n, a = int m ∧ b = float x ∧ c = int n ∧ m ≠ n ∧
      roundedInt m.toInt = roundedInt n.toInt := by
  rcases eq_or_worth_of_equals first with rfl | ⟨worth, left, middle⟩
  · exact Or.inl second
  rcases eq_or_worth_of_equals second with rfl | ⟨other, again, right⟩
  · exact Or.inl first
  obtain rfl : worth = other := Option.some.inj (middle.symm.trans again)
  rcases equals_or_apart_of_worth left right with equal | ⟨m, n, rfl, rfl, apart⟩
  · exact Or.inl equal
  · cases b with
    | str => cases middle
    | int k =>
      have chain : m = n := (beq_iff_eq.mp first).trans (beq_iff_eq.mp second)
      exact absurd chain apart
    | float x =>
      have same := left.trans right.symm
      rw [worth?_int, worth?_int] at same
      exact Or.inr ⟨m, x, n, rfl, rfl, rfl, apart, by simpa using same⟩

end Worth

section Numbers

variable {a b : Value} {ordered : Bool} {n : Int64} {x : Float} {value : ℚ}

theorem compare_eq_equal_iff : a.compare b ordered = .ok .equal ↔ a.equals b = true := by
  constructor
  · intro compared
    rcases compare_cases compared with ⟨-, equal⟩ | ⟨other, -⟩ | ⟨other, -⟩ | ⟨other, -⟩
    · exact equal
    all_goals cases other
  · intro equal
    rw [Value.compare, equal]
    rfl

theorem equals_float_iff (denotes : Denotes x value) :
    ((int n).equals (float x) = true ↔ value = roundedInt n.toInt) ∧
      ((float x).equals (int n) = true ↔ value = roundedInt n.toInt) := by
  have counted : (float x).worth? = some ↑(↑value : WithTop ℚ) := denotes_iff.mp denotes
  have order : (int n).kind ≠ (float x).kind := by exact nofun
  rw [equals_iff_worth order, equals_iff_worth order.symm, worth?_int, counted]
  constructor
  · simp [eq_comm]
  · simp [eq_comm]

/-- An integer and a float are found equal if the float is what the integer rounds to, in either
order and mode. There is no float nearer to the integer, and the rounding changes no integer that is
a float itself or has no more than fifty-three digits. Equality is transitive except for two integers
that round to one float: each is found equal to it, and they are not to each other. -/
theorem equality_rounds_integers (ordered : Bool) :
    (∀ (n : Int64) (x : Float) (value : ℚ), Denotes x value →
      ((int n).compare (float x) ordered = .ok .equal ↔ value = roundedInt n.toInt) ∧
        ((float x).compare (int n) ordered = .ok .equal ↔ value = roundedInt n.toInt) ∧
        (value = n.toInt ∨ n.toInt.natAbs ≤ 2 ^ 53 → roundedInt n.toInt = n.toInt) ∧
        |(roundedInt n.toInt : ℚ) - n.toInt| ≤ |value - n.toInt|) ∧
      ∀ a b c : Value, a.compare b ordered = .ok .equal → b.compare c ordered = .ok .equal →
        a.compare c ordered = .ok .equal ∨
          ∃ m x n, a = int m ∧ b = float x ∧ c = int n ∧ m ≠ n ∧
            roundedInt m.toInt = roundedInt n.toInt := by
  simp only [compare_eq_equal_iff]
  refine ⟨?_, fun a b c => equals_trans⟩
  intro n x value denotes
  obtain ⟨left, right⟩ := @equals_float_iff n x value denotes
  refine ⟨left, right, ?_, roundedInt_nearest denotes n.toInt⟩
  rintro (rfl | small)
  · exact roundedInt_of_denotes denotes
  · exact roundedInt_of_small small

/-- Two integers that differ are both found equal to the second of them as a float. -/
theorem neighbours_found_equal :
    (int 9007199254740993).compare (float (.ofBits 0x4340000000000000)) false = .ok .equal ∧
      Denotes (.ofBits 0x4340000000000000) 9007199254740992 ∧
      (float (.ofBits 0x4340000000000000)).compare (int 9007199254740992) false = .ok .equal ∧
      (int 9007199254740993).compare (int 9007199254740992) false = .ok .notEqual := by
  have shape : number (.ofBits 0x4340000000000000) = .finite false (2 ^ 52) 1 := by decide +kernel
  refine ⟨?_, ⟨false, 2 ^ 52, 1, shape, by norm_num [rational]⟩, ?_, rfl⟩
  · rw [compare_eq_equal_iff]
    decide +kernel
  · rw [compare_eq_equal_iff]
    decide +kernel

end Numbers

end Script8255.Value
