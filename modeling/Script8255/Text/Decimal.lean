/-! Integers written in decimal, and the words of 64 bits that hold them. -/

namespace Script8255.Text

def natural? (text : List Char) : Option Nat :=
  if text.isEmpty || !text.all Char.isDigit then none else some (Nat.ofDigitChars 10 text 0)

/-- An integer as it is written in a script: digits, after a minus sign if it is negative. -/
def integer? : List Char → Option Int
  | '-' :: digits => (natural? digits).map fun n : Nat => -(n : Int)
  | digits => (natural? digits).map Int.ofNat

def signed? : List Char → Option Int
  | '+' :: digits => (natural? digits).map Int.ofNat
  | text => integer? text

def ofInt : Int → List Char
  | .ofNat n => Nat.toDigits 10 n
  | .negSucc n => '-' :: Nat.toDigits 10 (n + 1)

theorem natural?_toDigits (n : Nat) : natural? (Nat.toDigits 10 n) = some n := by
  have digits : (Nat.toDigits 10 n).all Char.isDigit = true := by
    rw [List.all_eq_true]
    intro c member
    exact Nat.isDigit_of_mem_toDigits (by decide) (by decide) member
  simp [natural?, digits]

theorem integer?_ofInt (n : Int) : integer? (ofInt n) = some n := by
  cases n with
  | ofNat n =>
    have read := natural?_toDigits n
    change integer? (Nat.toDigits 10 n) = _
    unfold integer?
    split
    next digits h =>
      rw [h] at read
      simp [natural?] at read
    · simp [read]
  | negSucc n =>
    simp only [ofInt, integer?, natural?_toDigits, Option.map_some, Option.some.injEq]
    omega

def word? (n : Int) : Option Int64 :=
  if Int64.minValue.toInt ≤ n ∧ n ≤ Int64.maxValue.toInt then some (Int64.ofInt n) else none

theorem word?_eq_some_iff {n : Int} {word : Int64} : word? n = some word ↔ word.toInt = n := by
  have low : Int64.minValue.toInt = -2 ^ 63 := rfl
  have high : Int64.maxValue.toInt = 2 ^ 63 - 1 := rfl
  unfold word?
  rw [low, high]
  constructor
  · intro found
    split at found
    next range =>
      cases found
      exact Int64.toInt_ofInt_of_le range.1 (by omega)
    · cases found
  · rintro rfl
    have below := word.le_toInt
    have above := word.toInt_lt
    rw [if_pos ⟨below, by omega⟩, Int64.ofInt_toInt]

def FitsWord (n : Int) : Prop := Int64.minValue.toInt ≤ n ∧ n ≤ Int64.maxValue.toInt

instance (n : Int) : Decidable (FitsWord n) := inferInstanceAs (Decidable (_ ∧ _))

theorem fitsWord_toInt (word : Int64) : FitsWord word.toInt :=
  ⟨word.le_toInt, Int.le_of_lt_add_one word.toInt_lt⟩

theorem FitsWord.exists_toInt {n : Int} (inside : FitsWord n) : ∃ word : Int64, word.toInt = n :=
  ⟨Int64.ofInt n, Int64.toInt_ofInt_of_le inside.1 (Int.lt_add_one_of_le inside.2)⟩

theorem word?_eq_none_iff {n : Int} : word? n = none ↔ ¬FitsWord n := by
  constructor
  · intro missing inside
    obtain ⟨word, held⟩ := inside.exists_toInt
    rw [word?_eq_some_iff.mpr held] at missing
    cases missing
  · intro outside
    cases found : word? n with
    | none => rfl
    | some word => exact absurd (word?_eq_some_iff.mp found ▸ fitsWord_toInt word) outside

def size? (n : Nat) : Option UInt64 :=
  if n < UInt64.size then some (UInt64.ofNat n) else none

end Script8255.Text
