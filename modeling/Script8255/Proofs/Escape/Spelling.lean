import Mathlib.Data.Nat.Digits.Defs
import Script8255.Proofs.Escape

/-! The ways to spell a text with escapes. All of them decode to the text. -/

namespace Script8255.Escape

section Numerals

def digitValues : List (Char × Nat) :=
  [('0', 0), ('1', 1), ('2', 2), ('3', 3), ('4', 4), ('5', 5), ('6', 6), ('7', 7), ('8', 8),
    ('9', 9), ('a', 10), ('b', 11), ('c', 12), ('d', 13), ('e', 14), ('f', 15), ('A', 10),
    ('B', 11), ('C', 12), ('D', 13), ('E', 14), ('F', 15)]

def Numeral (base : Nat) (digits : List Char) (n : Nat) : Prop :=
  ∃ values, List.Forall₂ (fun c value => (c, value) ∈ digitValues ∧ value < base) digits values ∧
    Nat.ofDigits base values.reverse = n

theorem digit_of_mem {c : Char} {value : Nat} (known : (c, value) ∈ digitValues) :
    digit c = value ∧ isHex c = true ∧ isOctal c = decide (value < 8) := by
  have each : ∀ entry ∈ digitValues, digit entry.1 = entry.2 ∧ isHex entry.1 = true ∧
      isOctal entry.1 = decide (entry.2 < 8) := by decide
  exact each _ known

variable {base n : Nat} {digits : List Char}

theorem Numeral.code_eq (numeral : Numeral base digits n) : code base digits = n := by
  obtain ⟨values, known, rfl⟩ := numeral
  have read : digits.map digit = values := by
    induction known with
    | nil => rfl
    | cons known _ ih => rw [List.map_cons, (digit_of_mem known.1).1, ih]
  subst read
  unfold code
  rw [Nat.ofDigits_eq_foldr, List.foldr_reverse, List.foldl_map]
  simp [Nat.add_comm, Nat.mul_comm]

theorem Numeral.forall_digits (numeral : Numeral base digits n) :
    ∀ c ∈ digits, ∃ value < base, (c, value) ∈ digitValues := by
  obtain ⟨values, known, -⟩ := numeral
  induction known with
  | nil => exact nofun
  | cons known _ ih => exact List.forall_mem_cons.mpr ⟨⟨_, known.2, known.1⟩, ih⟩

theorem Numeral.all_isHex (numeral : Numeral base digits n) : digits.all isHex = true := by
  rw [List.all_eq_true]
  intro c member
  obtain ⟨value, -, known⟩ := numeral.forall_digits c member
  exact (digit_of_mem known).2.1

theorem Numeral.all_isOctal (numeral : Numeral 8 digits n) : digits.all isOctal = true := by
  rw [List.all_eq_true]
  intro c member
  obtain ⟨value, small, known⟩ := numeral.forall_digits c member
  rw [(digit_of_mem known).2.2]
  exact decide_eq_true small

end Numerals

def letterMeanings : List (Char × Char) :=
  [('\\', '\\'), ('\'', '\''), ('"', '"'), ('a', '\x07'), ('b', '\x08'), ('f', '\x0c'),
    ('n', '\n'), ('r', '\r'), ('t', '\t'), ('v', '\x0b')]

theorem letter?_of_mem {letter c : Char} (known : (letter, c) ∈ letterMeanings) :
    letter? letter = some c := by
  have each : ∀ entry ∈ letterMeanings, letter? entry.1 = some entry.2 := by decide
  exact each _ known

inductive Spells (c : Char) : List Char → Prop where
  | itself : c ≠ '\\' → Spells c [c]
  | letter {letter : Char} : (letter, c) ∈ letterMeanings → Spells c ['\\', letter]
  | octal {digits : List Char} :
    digits.length = 3 → Numeral 8 digits c.toNat → Spells c ('\\' :: digits)
  | hex {mark : Char} {digits : List Char} :
    (mark, digits.length) ∈ hexMarks → Numeral 16 digits c.toNat → Spells c ('\\' :: mark :: digits)

/-- A text as the spellings of its characters one after the other. Lines may be continued before,
between and behind them. -/
inductive Spelled : List Char → List Char → Prop where
  | nil : Spelled [] []
  | continued {text written : List Char} :
    Spelled text written → Spelled text ('\\' :: '\n' :: written)
  | cons {c : Char} {spelling text written : List Char} :
    Spells c spelling → Spelled text written → Spelled (c :: text) (spelling ++ written)

theorem Spells.decode_append {c : Char} {spelling : List Char} (spells : Spells c spelling)
    (rest : List Char) : decode (spelling ++ rest) = (decode rest).map (c :: ·) := by
  cases spells with
  | itself plain => exact decode_plain plain rest
  | letter known => exact decode_letter (letter?_of_mem known) rest
  | octal three numeral => exact decode_octal three numeral.all_isOctal numeral.code_eq rest
  | hex marked numeral => exact decode_hex marked numeral.all_isHex numeral.code_eq rest

/-- Every way to spell a text decodes to the text. -/
theorem spelled_text_decodes {text written : List Char} (spelled : Spelled text written) :
    decode written = .ok text := by
  induction spelled with
  | nil => rw [decode]
  | continued _ ih => rw [decode_continued, ih]
  | cons spells _ ih =>
    rw [spells.decode_append, ih]
    rfl

theorem adjacent_spellings_decode :
    let text := ['A', '4', '\\', 'n', '0', '7', '\n', '😊']
    let written := ['\\', 'x', '4', '1'] ++ (['4'] ++ ('\\' :: '\n' :: (['\\', '\\'] ++ (['n'] ++
      (['\\', '0', '6', '0'] ++ (['7'] ++ (['\\', 'n'] ++
        (['\\', 'U', '0', '0', '0', '1', 'F', '6', '0', 'a'] ++ ['\\', '\n']))))))))
    Spelled text written ∧ decode written = .ok text := by
  intro text written
  have small : Numeral 16 ['4', '1'] 'A'.toNat := ⟨[4, 1], by simp [digitValues], by decide⟩
  have octal : Numeral 8 ['0', '6', '0'] '0'.toNat := ⟨[0, 6, 0], by simp [digitValues], by decide⟩
  have large : Numeral 16 ['0', '0', '0', '1', 'F', '6', '0', 'a'] '😊'.toNat :=
    ⟨[0, 0, 0, 1, 15, 6, 0, 10], by simp [digitValues], by decide⟩
  have spelled : Spelled text written :=
    .cons (.hex (by decide) small) <| .cons (.itself (by decide)) <| .continued <|
      .cons (.letter (by decide)) <| .cons (.itself (by decide)) <| .cons (.octal rfl octal) <|
      .cons (.itself (by decide)) <| .cons (.letter (by decide)) <|
      .cons (.hex (by decide) large) <| .continued .nil
  exact ⟨spelled, spelled_text_decodes spelled⟩

end Script8255.Escape
