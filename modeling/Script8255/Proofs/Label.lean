import Mathlib.Data.List.Induction
import Script8255.Program

/-! The label table of a program: each label stands for the last line that defines it. -/

namespace Script8255.Program

def IsLabel (program : Program) (label : String) (i : Nat) : Prop :=
  program.instructions[i]? = some ["lbl", label]

structure IsLastLabel (program : Program) (label : String) (i : Nat) : Prop where
  here : program.IsLabel label i
  last : ∀ j, i < j → ¬ program.IsLabel label j

variable {label : String} {i : Nat} {tokens : List String} {front : List (List String)}

theorem labelTable_append (index : Nat) (front back : List (List String)) (labels : Table Nat) :
    labelTable index (front ++ back) labels =
      labelTable (index + front.length) back (labelTable index front labels) := by
  induction front generalizing index labels with
  | nil => simp [labelTable]
  | cons tokens rest ih =>
    have shifted : index + (rest.length + 1) = index + 1 + rest.length := by omega
    simp only [List.cons_append, labelTable, List.length_cons, shifted]
    split <;> exact ih _ _

theorem get?_labelTable_snoc (front : List (List String)) (tokens : List String) (label : String) :
    (labelTable 0 (front ++ [tokens]) []).get? label =
      if tokens = ["lbl", label] then some front.length
      else (labelTable 0 front []).get? label := by
  rw [labelTable_append, Nat.zero_add]
  by_cases defines : ∃ name, tokens = ["lbl", name]
  · obtain ⟨name, rfl⟩ := defines
    change ((labelTable 0 front []).put name front.length).get? label = _
    simp [Table.get?_put, eq_comm]
  · have other : tokens ≠ ["lbl", label] := fun same => defines ⟨label, same⟩
    have skipped (labels : Table Nat) : labelTable front.length [tokens] labels = labels := by
      simp only [labelTable]
      split
      next name => exact absurd ⟨name, rfl⟩ defines
      next => rfl
    rw [skipped, if_neg other]

theorem isLabel_ofInstructions {instructions : List (List String)} :
    (ofInstructions instructions).IsLabel label i ↔ instructions[i]? = some ["lbl", label] := by
  simp [IsLabel, ofInstructions]

theorem IsLabel.lt (defined : (ofInstructions front).IsLabel label i) : i < front.length :=
  (List.getElem?_eq_some_iff.mp (isLabel_ofInstructions.mp defined)).1

theorem isLabel_snoc_iff :
    (ofInstructions (front ++ [tokens])).IsLabel label i ↔
      (ofInstructions front).IsLabel label i ∨ i = front.length ∧ tokens = ["lbl", label] := by
  simp only [isLabel_ofInstructions]
  rcases Nat.lt_trichotomy i front.length with before | rfl | after
  · have apart : i ≠ front.length := by omega
    simp [List.getElem?_append_left before, apart]
  · simp
  · have apart : i ≠ front.length := by omega
    have beyond : (front ++ [tokens]).length ≤ i := by
      rw [List.length_append, List.length_singleton]
      omega
    simp [List.getElem?_eq_none beyond, List.getElem?_eq_none (Nat.le_of_lt after), apart]

theorem isLastLabel_snoc_iff :
    (ofInstructions (front ++ [tokens])).IsLastLabel label i ↔
      if tokens = ["lbl", label] then i = front.length
      else (ofInstructions front).IsLastLabel label i := by
  by_cases defines : tokens = ["lbl", label]
  · have final : (ofInstructions (front ++ [tokens])).IsLabel label front.length :=
      isLabel_snoc_iff.mpr (Or.inr ⟨rfl, defines⟩)
    rw [if_pos defines]
    constructor
    · intro last
      rcases isLabel_snoc_iff.mp last.here with early | ⟨same, -⟩
      · exact absurd final (last.last _ early.lt)
      · exact same
    · rintro rfl
      refine ⟨final, ?_⟩
      intro j after later
      have bounded := later.lt
      rw [List.length_append, List.length_singleton] at bounded
      omega
  · have same (j : Nat) : (ofInstructions (front ++ [tokens])).IsLabel label j ↔
        (ofInstructions front).IsLabel label j := by
      simp [isLabel_snoc_iff, defines]
    rw [if_neg defines]
    constructor
    · intro last
      exact ⟨(same i).mp last.here, fun j after => mt (same j).mpr (last.last j after)⟩
    · intro last
      exact ⟨(same i).mpr last.here, fun j after => mt (same j).mp (last.last j after)⟩

/-- The table holds the last definition of each label. -/
theorem get?_labels_iff (instructions : List (List String)) (label : String) (i : Nat) :
    (ofInstructions instructions).labels.get? label = some i ↔
      (ofInstructions instructions).IsLastLabel label i := by
  change (labelTable 0 instructions []).get? label = some i ↔ _
  induction instructions using List.reverseRecOn with
  | nil =>
    constructor
    · intro found
      cases found
    · intro last
      exact absurd last.here.lt (Nat.not_lt_zero i)
  | append_singleton front tokens ih =>
    rw [get?_labelTable_snoc, isLastLabel_snoc_iff]
    split
    · simp [eq_comm]
    · exact ih

theorem get?_labels_eq_none_iff (instructions : List (List String)) (label : String) :
    (ofInstructions instructions).labels.get? label = none ↔
      ∀ i, ¬ (ofInstructions instructions).IsLabel label i := by
  change (labelTable 0 instructions []).get? label = none ↔ _
  induction instructions using List.reverseRecOn with
  | nil =>
    refine ⟨fun _ i defined => ?_, fun _ => rfl⟩
    exact absurd defined.lt (Nat.not_lt_zero i)
  | append_singleton front tokens ih =>
    rw [get?_labelTable_snoc]
    by_cases defines : tokens = ["lbl", label]
    · have final : (ofInstructions (front ++ [tokens])).IsLabel label front.length :=
        isLabel_snoc_iff.mpr (Or.inr ⟨rfl, defines⟩)
      rw [if_pos defines]
      exact ⟨nofun, fun nowhere => absurd final (nowhere front.length)⟩
    · simp [isLabel_snoc_iff, defines, ih]

end Script8255.Program
