import Script8255.Proofs.Equality
import Script8255.Proofs.Text.Encoding

/-! The order that comparisons find among the values of one kind. -/

namespace Script8255

namespace Flag

def mirrored : Flag → Flag
  | greater => less
  | less => greater
  | greaterOrEqual => lessOrEqual
  | lessOrEqual => greaterOrEqual
  | flag => flag

def ofOrder? : Option Ordering → Flag
  | some .gt => greater
  | some .lt => less
  | _ => notEqual

theorem ofOrder?_swap (order : Option Ordering) :
    ofOrder? (order.map Ordering.swap) = (ofOrder? order).mirrored := by
  rcases order with _ | _ | _ | _ <;> rfl

end Flag

namespace Value

/-- What a comparison comes to when the values are compared the other way round. -/
def mirrored : Except Failure Flag → Except Failure Flag
  | .ok flag => .ok flag.mirrored
  | .error (.comparisonKinds left right) => .error (.comparisonKinds right left)
  | .error failure => .error failure

variable {a b c : Value}

theorem compare_of_kinds (unequal : a.equals b = false) (kinds : a.kind ≠ b.kind) :
    a.compare b true = .error (.comparisonKinds a.kind b.kind) := by
  simp [compare, unequal, kinds]

theorem compare_of_order (unequal : a.equals b = false) (kinds : a.kind = b.kind) :
    a.compare b true = .ok (.ofOrder? (order? a b)) := by
  rcases order : order? a b with _ | _ | _ | _ <;>
    simp [compare, unequal, kinds, order, Flag.ofOrder?]

theorem equals_comm (a b : Value) : a.equals b = b.equals a := by
  have floats (x y : Float) :
      (Binary64.compare? x y == some .eq) = (Binary64.compare? y x == some .eq) := by
    rw [Binary64.compare?_swap x y]
    rcases Binary64.compare? x y with _ | _ | _ | _ <;> rfl
  cases a <;> cases b
  case int.int => exact Bool.beq_comm
  case str.str => exact Bool.beq_comm
  case int.float => exact floats _ _
  case float.int => exact floats _ _
  case float.float => exact floats _ _
  all_goals rfl

theorem compare_mirrored (a b : Value) : b.compare a true = mirrored (a.compare b true) := by
  have unordered := equals_comm a b
  cases equal : a.equals b with
  | true =>
    rw [equal] at unordered
    rw [compare_eq_equal_iff.mpr equal, compare_eq_equal_iff.mpr unordered.symm]
    rfl
  | false =>
    rw [equal] at unordered
    by_cases kinds : a.kind = b.kind
    · rw [compare_of_order equal kinds, compare_of_order unordered.symm kinds.symm,
        order?_swap a b, Flag.ofOrder?_swap]
      rfl
    · rw [compare_of_kinds equal kinds, compare_of_kinds unordered.symm (Ne.symm kinds)]
      rfl

theorem exists_order? (kinds : a.kind = b.kind) (left : ¬ a.IsNaN) (right : ¬ b.IsNaN) :
    ∃ order, order? a b = some order := by
  cases a <;> cases b <;> simp only [kind, reduceCtorEq] at kinds
  case int.int => exact ⟨_, rfl⟩
  case str.str => exact ⟨_, rfl⟩
  case float.float x y =>
    cases compared : Binary64.compare? x y with
    | some order => exact ⟨order, compared⟩
    | none =>
      rcases Binary64.nan_of_compare? compared with undefined | undefined
      · exact absurd ⟨x, rfl, undefined⟩ left
      · exact absurd ⟨y, rfl, undefined⟩ right

theorem equals_of_order? (level : order? a b = some .eq) : a.equals b = true := by
  cases a <;> cases b <;> simp only [order?, Option.some.injEq, reduceCtorEq] at level
  case int.int m n =>
    have same : m = n := Int64.toInt_inj.mp (compare_eq_iff_eq.mp level)
    exact beq_iff_eq.mpr same
  case float.float => exact beq_iff_eq.mpr level
  case str.str s t =>
    rw [← LinearOrder.compare_eq_compareOfLessAndEq] at level
    exact beq_iff_eq.mpr (compare_eq_iff_eq.mp level)

theorem exists_flag (kinds : a.kind = b.kind) (left : ¬ a.IsNaN) (right : ¬ b.IsNaN) :
    ∃ flag ∈ [Flag.equal, .less, .greater], a.compare b true = .ok flag := by
  cases equal : a.equals b with
  | true => exact ⟨.equal, by simp, compare_eq_equal_iff.mpr equal⟩
  | false =>
    rw [compare_of_order equal kinds]
    obtain ⟨order, compared⟩ := exists_order? kinds left right
    rw [compared]
    cases order with
    | lt => exact ⟨.less, by simp, rfl⟩
    | gt => exact ⟨.greater, by simp, rfl⟩
    | eq =>
      rw [equals_of_order? compared] at equal
      cases equal

theorem compare_eq_less_iff : a.compare b true = .ok .less ↔ a.Less b := by
  constructor
  · intro compared
    rcases compare_cases compared with ⟨other, -⟩ | ⟨other, -⟩ | ⟨other, -⟩ | ⟨-, -, less⟩
    · cases other
    · cases other
    · cases other
    · exact less
  · intro less
    have kinds : a.kind = b.kind := by
      cases a <;> cases b <;> first | rfl | exact absurd less id
    rw [compare_of_order (not_equals_of_less (Or.inl less)) kinds, order?_eq_lt_iff.mpr less]
    rfl

theorem Less.trans (first : a.Less b) (second : b.Less c) : a.Less c := by
  cases a <;> cases b <;> simp only [Less] at first
  case int.int =>
    cases c <;> simp only [Less] at second
    exact Int.lt_trans first second
  case float.float =>
    cases c <;> simp only [Less] at second
    obtain ⟨low, middle, left, here, below⟩ := first
    obtain ⟨other, high, again, right, above⟩ := second
    obtain rfl : middle = other := Option.some.inj (here.symm.trans again)
    exact ⟨low, high, left, right, below.trans above⟩
  case str.str =>
    cases c <;> simp only [Less] at second
    exact String.lt_trans first second

theorem compare_congr (kinds : a.kind = b.kind) (equal : a.equals b = true) (c : Value) :
    a.compare c true = b.compare c true := by
  cases a <;> cases b <;> simp only [kind, reduceCtorEq] at kinds
  case int.int => rw [beq_iff_eq.mp equal]
  case str.str => rw [beq_iff_eq.mp equal]
  case float.float x y =>
    have alike := Binary64.compare?_congr (beq_iff_eq.mp equal)
    have equals : (float x).equals c = (float y).equals c := by
      cases c <;> simp [Value.equals, toFloat?, alike]
    have order : order? (float x) c = order? (float y) c := by
      cases c <;> simp [order?, alike]
    unfold compare
    rw [equals, order]
    rfl

/-- An ordered comparison is antisymmetric in its results, and on the values of one kind it is a
linear order, NaN aside: equal values can be exchanged. Texts are ordered by the codes of their
characters, which is the order of their bytes. -/
theorem comparison_orders_kinds :
    (∀ a b : Value, b.compare a true = mirrored (a.compare b true)) ∧
      (∀ a b : Value, a.kind = b.kind → ¬ a.IsNaN → ¬ b.IsNaN →
        ∃! flag, flag ∈ [Flag.equal, .less, .greater] ∧ a.compare b true = .ok flag) ∧
      (∀ a b c : Value, a.compare b true = .ok .less → b.compare c true = .ok .less →
        a.compare c true = .ok .less) ∧
      (∀ a b : Value, a.kind = b.kind → a.compare b true = .ok .equal → ∀ c,
        a.compare c true = b.compare c true ∧ c.compare a true = c.compare b true) ∧
      ∀ s t : String,
        ((str s).compare (str t) true = .ok .less ↔ Text.codes s < Text.codes t) ∧
          ((str s).compare (str t) true = .ok .less ↔ Text.bytes s < Text.bytes t) ∧
          (t ≠ "" → (str s).compare (str (s ++ t)) true = .ok .less) := by
  refine ⟨compare_mirrored, ?_, ?_, ?_, ?_⟩
  · intro a b kinds left right
    obtain ⟨flag, member, compared⟩ := exists_flag kinds left right
    refine ⟨flag, ⟨member, compared⟩, ?_⟩
    rintro other ⟨-, also⟩
    exact Except.ok.inj (also.symm.trans compared)
  · intro a b c first second
    rw [compare_eq_less_iff] at first second ⊢
    exact first.trans second
  · intro a b kinds equal c
    have alike := compare_congr kinds (compare_eq_equal_iff.mp equal) c
    refine ⟨alike, ?_⟩
    rw [compare_mirrored a c, compare_mirrored b c, alike]
  · intro s t
    have less (t : String) : (str s).compare (str t) true = .ok .less ↔ s < t :=
      compare_eq_less_iff
    rw [less, less, Text.codes_lt_iff, Text.bytes_lt_iff]
    refine ⟨Iff.rfl, Iff.rfl, ?_⟩
    intro filled
    rw [String.lt_iff_toList_lt, String.toList_append]
    obtain ⟨first, rest, shape⟩ :=
      List.exists_cons_of_ne_nil (mt String.toList_eq_nil_iff.mp filled)
    have longer : s.toList ++ [] < s.toList ++ t.toList := by
      rw [shape]
      exact List.append_left_lt (List.nil_lt_cons first rest)
    rwa [List.append_nil] at longer

end Value

end Script8255
