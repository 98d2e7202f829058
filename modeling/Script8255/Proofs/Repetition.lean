import Mathlib
import Script8255.Arithmetic

/-! A text multiplied by an integer is the text added to itself. -/

namespace Script8255.Value

section Copies

variable {text : String} {n : Nat}

def copied (text : String) (n : Nat) : String := Nat.repeat (· ++ text) n ""

theorem copied_add (text : String) (m n : Nat) :
    copied text (m + n) = copied text m ++ copied text n := by
  induction n with
  | zero => exact String.append_empty.symm
  | succ n ih =>
    calc copied text (m + n + 1) = copied text m ++ copied text n ++ text := congrArg (· ++ text) ih
      _ = copied text m ++ copied text (n + 1) := String.append_assoc

theorem utf8ByteSize_copied (text : String) (n : Nat) :
    (copied text n).utf8ByteSize = text.utf8ByteSize * n := by
  induction n with
  | zero => rfl
  | succ n ih =>
    calc (copied text n ++ text).utf8ByteSize
        = (copied text n).utf8ByteSize + text.utf8ByteSize := String.utf8ByteSize_append
      _ = text.utf8ByteSize * (n + 1) := by rw [ih, Nat.mul_succ]

theorem copied_eq_empty (nothing : text.utf8ByteSize * n = 0) : copied text n = "" := by
  rw [← utf8ByteSize_copied] at nothing
  exact String.utf8ByteSize_eq_zero_iff.mp nothing

theorem repeated_eq (text : String) (count : Int64) :
    repeated text count =
      if 2 ^ 63 - 1 ≤ text.utf8ByteSize * count.toInt.toNat then .error .repetitionSize
      else .ok (.str (copied text count.toInt.toNat)) := by
  have limit : Int64.maxValue.toInt ≤ ((text.utf8ByteSize * count.toInt.toNat : Nat) : Int) ↔
      2 ^ 63 - 1 ≤ text.utf8ByteSize * count.toInt.toNat := by
    change (2 ^ 63 - 1 : Int) ≤ _ ↔ _
    omega
  unfold repeated
  dsimp only
  by_cases large : 2 ^ 63 - 1 ≤ text.utf8ByteSize * count.toInt.toNat
  · rw [if_pos (limit.mpr large), if_pos large]
  · rw [if_neg (mt limit.mp large), if_neg large]
    split
    next nothing => rw [copied_eq_empty nothing]
    · rfl

end Copies

/-- A text added to the empty text so many times. -/
def addedTimes (text : String) : Nat → Except Unusable Value
  | 0 => .ok (.str "")
  | copies + 1 => do Operation.apply .add (← addedTimes text copies) (.str text)

theorem addedTimes_eq (text : String) (n : Nat) :
    addedTimes text n = .ok (.str (copied text n)) := by
  induction n with
  | zero => rfl
  | succ n ih =>
    rw [addedTimes, ih]
    rfl

/-- A text multiplied by an integer, from either side, is the text added to the empty text so many
times, or not at all for a negative integer. The bytes of the result have to be fewer than the
largest signed word. A sum of natural numbers may be split into a sum of two products. -/
theorem repetition_iterates_addition (text : String) :
    (∀ n : Int64,
      Operation.apply .mul (.int n) (.str text) = Operation.apply .mul (.str text) (.int n) ∧
        let copies := (max n.toInt 0).toNat
        if 2 ^ 63 - 1 ≤ text.utf8ByteSize * copies then
          Operation.apply .mul (.str text) (.int n) = .error .repetitionSize
        else
          ∃ value, Operation.apply .mul (.str text) (.int n) = .ok value ∧
            addedTimes text copies = .ok value ∧ value.byteSize = text.utf8ByteSize * copies) ∧
      (∀ m n sum : Int64, 0 ≤ m.toInt → 0 ≤ n.toInt → sum.toInt = m.toInt + n.toInt →
        ∀ value, Operation.apply .mul (.str text) (.int sum) = .ok value →
          (do
            let first ← Operation.apply .mul (.str text) (.int m)
            let second ← Operation.apply .mul (.str text) (.int n)
            Operation.apply .add first second) = .ok value) ∧
      (Failure.unusable .repetitionSize).isFatal = false ∧
      (Failure.unusable .repetitionSize).message = "repeated string is too large" := by
  have product (n : Int64) : Operation.apply .mul (.str text) (.int n) = repeated text n := rfl
  refine ⟨fun n => ⟨rfl, ?_⟩, fun m n sum left right whole value multiplied => ?_, rfl, rfl⟩
  · have clamped : (max n.toInt 0).toNat = n.toInt.toNat := by omega
    dsimp only
    rw [clamped, product, repeated_eq]
    split
    · rfl
    · exact ⟨_, rfl, addedTimes_eq text _, utf8ByteSize_copied text _⟩
  · have split : sum.toInt.toNat = m.toInt.toNat + n.toInt.toNat := by omega
    have bytes : text.utf8ByteSize * sum.toInt.toNat =
        text.utf8ByteSize * m.toInt.toNat + text.utf8ByteSize * n.toInt.toNat := by
      rw [split, Nat.mul_add]
    rw [product, repeated_eq] at multiplied
    split at multiplied
    · cases multiplied
    next small =>
      -- Neither part has more bytes than the whole.
      rw [product, product, repeated_eq, repeated_eq, if_neg (by omega), if_neg (by omega),
        ← multiplied, split, copied_add]
      rfl

theorem accented_copies_join :
    (0 ≤ (2 : Int64).toInt ∧ 0 ≤ (1 : Int64).toInt ∧
        (3 : Int64).toInt = (2 : Int64).toInt + (1 : Int64).toInt ∧
        Operation.apply .mul (.str "é") (.int 3) = .ok (.str "ééé")) ∧
      (do
        let first ← Operation.apply .mul (.str "é") (.int 2)
        let second ← Operation.apply .mul (.str "é") (.int 1)
        Operation.apply .add first second) = .ok (.str "ééé") :=
  ⟨⟨by decide, by decide, by decide, rfl⟩,
    (repetition_iterates_addition "é").2.1 2 1 3 (by decide) (by decide) (by decide) _ rfl⟩

end Script8255.Value
