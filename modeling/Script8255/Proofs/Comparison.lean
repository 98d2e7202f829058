import Script8255.Comparison
import Script8255.Proofs.Binary64.Order

/-! What a comparison finds out about two values, and what a jump makes of it. -/

namespace Script8255

namespace Value

/-- Integers and numbers that are not NaN are less by what they denote, and strings by the codes of
their characters. Values of different kinds are never less. -/
def Less : Value → Value → Prop
  | int m, int n => m.toInt < n.toInt
  | float x, float y =>
    ∃ a b, (Binary64.number x).extended? = some a ∧ (Binary64.number y).extended? = some b ∧ a < b
  | str s, str t => s < t
  | _, _ => False

def IsNaN (value : Value) : Prop := ∃ x, value = float x ∧ Binary64.number x = .nan

variable {a b : Value}

theorem order?_eq_lt_iff : order? a b = some .lt ↔ a.Less b := by
  cases a <;> cases b <;> simp only [order?, Less, reduceCtorEq, Option.some.injEq]
  case int.int => exact compare_lt_iff_lt
  case float.float => exact Binary64.compare?_eq_some_iff
  case str.str s t =>
    rw [← LinearOrder.compare_eq_compareOfLessAndEq]
    exact compare_lt_iff_lt

theorem order?_swap (a b : Value) : order? b a = (order? a b).map Ordering.swap := by
  cases a <;> cases b <;> simp only [order?, Option.map_some, Option.map_none]
  case int.int => exact congrArg some Std.OrientedCmp.eq_swap
  case float.float x y => exact Binary64.compare?_swap x y
  case str.str s t =>
    rw [← LinearOrder.compare_eq_compareOfLessAndEq, ← LinearOrder.compare_eq_compareOfLessAndEq]
    exact congrArg some Std.OrientedCmp.eq_swap

theorem order?_eq_gt_iff : order? a b = some .gt ↔ b.Less a := by
  rw [← order?_eq_lt_iff, order?_swap a b]
  rcases order? a b with _ | _ | _ | _ <;> simp

theorem order?_of_equals (equal : a.equals b = true) :
    order? a b ≠ some .lt ∧ order? a b ≠ some .gt := by
  cases a <;> cases b <;> simp_all [order?, equals, toFloat?, compareOfLessAndEq]

theorem not_less_of_equals (equal : a.equals b = true) : ¬ a.Less b ∧ ¬ b.Less a := by
  obtain ⟨less, greater⟩ := order?_of_equals equal
  exact ⟨fun below => less (order?_eq_lt_iff.mpr below),
    fun above => greater (order?_eq_gt_iff.mpr above)⟩

theorem not_equals_of_less (less : a.Less b ∨ b.Less a) : a.equals b = false := by
  cases equal : a.equals b with
  | false => rfl
  | true =>
    obtain ⟨notLess, notGreater⟩ := not_less_of_equals equal
    exact absurd less (not_or.mpr ⟨notLess, notGreater⟩)

theorem not_less_of_less (less : a.Less b) : ¬ b.Less a := by
  intro greater
  have below := order?_eq_lt_iff.mpr less
  rw [order?_eq_gt_iff.mpr greater] at below
  cases below

theorem compare_cases {ordered : Bool} {flag : Flag} (compared : a.compare b ordered = .ok flag) :
    (flag = .equal ∧ a.equals b = true) ∨
      (flag = .notEqual ∧ a.equals b = false ∧ (ordered = true → ¬ a.Less b ∧ ¬ b.Less a)) ∨
      (flag = .greater ∧ ordered = true ∧ b.Less a) ∨
      (flag = .less ∧ ordered = true ∧ a.Less b) := by
  unfold compare at compared
  cases equal : a.equals b with
  | true =>
    rw [equal] at compared
    cases compared
    exact Or.inl ⟨rfl, rfl⟩
  | false =>
    cases ordered with
    | false =>
      rw [equal] at compared
      cases compared
      exact Or.inr (Or.inl ⟨rfl, rfl, nofun⟩)
    | true =>
      by_cases kinds : a.kind = b.kind
      · rw [← order?_eq_lt_iff, ← order?_eq_gt_iff]
        rcases order : order? a b with _ | _ | _ | _ <;> simp_all
      · simp [equal, kinds] at compared

theorem order?_of_nan (nan : a.IsNaN ∨ b.IsNaN) : order? a b = none := by
  rcases nan with ⟨x, rfl, undefined⟩ | ⟨y, rfl, undefined⟩
  · cases b <;> simp [order?, Binary64.compare?_of_nan, undefined]
  · cases a <;> simp [order?, Binary64.compare?_of_nan, undefined]

theorem equals_of_nan (nan : a.IsNaN ∨ b.IsNaN) : a.equals b = false := by
  rcases nan with ⟨x, rfl, undefined⟩ | ⟨y, rfl, undefined⟩
  · cases b <;> simp [equals, toFloat?, Binary64.compare?_of_nan, undefined]
  · cases a <;> simp [equals, toFloat?, Binary64.compare?_of_nan, undefined]

end Value

/-- What a jump asks of the values that were compared. -/
def Jump.Holds (jump : Jump) (ordered : Bool) (left right : Value) : Prop :=
  match jump with
  | .eq => left.equals right = true
  | .ne => left.equals right = false
  | .gt => ordered = true ∧ right.Less left
  | .lt => ordered = true ∧ left.Less right
  | .ge => ordered = true ∧ (right.Less left ∨ left.equals right = true)
  | .le => ordered = true ∧ (left.Less right ∨ left.equals right = true)

namespace Jump

variable {left right : Value} {ordered : Bool} {flag : Flag}

theorem fires_iff_holds (compared : left.compare right ordered = .ok flag) (jump : Jump) :
    jump.fires flag ordered = true ↔ jump.Holds ordered left right := by
  rcases Value.compare_cases compared with ⟨rfl, equal⟩ | ⟨rfl, unequal, apart⟩ |
    ⟨rfl, rfl, greater⟩ | ⟨rfl, rfl, less⟩
  · obtain ⟨notLess, notGreater⟩ := Value.not_less_of_equals equal
    cases jump <;> simp [fires, relation, Holds, equal, notLess, notGreater]
  · cases ordered with
    | false => cases jump <;> simp [fires, relation, Holds, unequal]
    | true =>
      obtain ⟨notLess, notGreater⟩ := apart rfl
      cases jump <;> simp [fires, relation, Holds, unequal, notLess, notGreater]
  · have notLess := Value.not_less_of_less greater
    have unequal := Value.not_equals_of_less (Or.inr greater)
    cases jump <;> simp [fires, relation, Holds, unequal, greater, notLess]
  · have notGreater := Value.not_less_of_less less
    have unequal := Value.not_equals_of_less (Or.inl less)
    cases jump <;> simp [fires, relation, Holds, unequal, less, notGreater]

theorem not_fires_unset (jump : Jump) (ordered : Bool) : jump.fires .unset ordered = false := by
  cases jump <;> cases ordered <;> rfl

theorem holds_of_nan (nan : left.IsNaN ∨ right.IsNaN) (jump : Jump) :
    jump.Holds ordered left right ↔ jump = .ne := by
  have unequal := Value.equals_of_nan nan
  have notLess : ¬ left.Less right := by
    rw [← Value.order?_eq_lt_iff, Value.order?_of_nan nan]
    exact nofun
  have notGreater : ¬ right.Less left := by
    rw [← Value.order?_eq_gt_iff, Value.order?_of_nan nan]
    exact nofun
  cases jump <;> simp [Holds, unequal, notLess, notGreater]

end Jump

end Script8255
