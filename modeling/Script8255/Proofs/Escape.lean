import Mathlib.Data.List.Basic
import Script8255.Escape
import Script8255.Proofs.Result

/-! Texts whose first character is spelled in some way, and what is left to decode after it. -/

namespace Script8255.Escape

theorem ne_of_isHex {c d : Char} (hexadecimal : isHex c = true) (other : isHex d = false) :
    c ≠ d := by
  rintro rfl
  rw [hexadecimal] at other
  cases other

theorem character_toNat (c : Char) : character c.toNat = .ok c := by
  have valid : c.toNat.isValidChar := c.valid
  unfold character
  rw [if_pos valid, Char.ofNat_toNat]

theorem decode_plain {c : Char} (plain : c ≠ '\\') (rest : List Char) :
    decode (c :: rest) = (decode rest).map (c :: ·) := by
  rw [decode.eq_def]
  exact if_neg plain

theorem decode_of_no_backslash {text : List Char} (plain : '\\' ∉ text) :
    decode text = .ok text := by
  induction text with
  | nil => rw [decode]
  | cons c rest ih =>
    rw [List.mem_cons, not_or] at plain
    rw [decode_plain (Ne.symm plain.1), ih plain.2]
    rfl

theorem decode_escape {d : Char} {text meaning : List Char} {taken : Nat}
    (reads : read d text = .ok (meaning, taken)) :
    decode ('\\' :: d :: text) = (decode (text.drop taken)).map (meaning ++ ·) := by
  rw [decode, if_pos rfl]
  simp only [reads]

theorem hex_code {c : Char} {digits : List Char} (hexadecimal : digits.all isHex = true)
    (means : code 16 digits = c.toNat) (letter : Char) (rest : List Char) :
    hex letter digits.length (digits ++ rest) = .ok ([c], digits.length) := by
  unfold hex
  simp only [List.take_left, hexadecimal, means, character_toNat, decide_true, Bool.and_true,
    if_true]
  rfl

def hexMarks : List (Char × Nat) := [('x', 2), ('u', 4), ('U', 8)]

theorem read_hex {mark : Char} {count : Nat} (marked : (mark, count) ∈ hexMarks)
    (text : List Char) : read mark text = hex mark count text := by
  simp only [hexMarks, List.mem_cons, List.not_mem_nil, or_false, Prod.mk.injEq] at marked
  rcases marked with ⟨rfl, rfl⟩ | ⟨rfl, rfl⟩ | ⟨rfl, rfl⟩ <;> rfl

theorem decode_hex {mark c : Char} {digits : List Char}
    (marked : (mark, digits.length) ∈ hexMarks) (hexadecimal : digits.all isHex = true)
    (means : code 16 digits = c.toNat) (rest : List Char) :
    decode ('\\' :: mark :: (digits ++ rest)) = (decode rest).map (c :: ·) := by
  have reads : read mark (digits ++ rest) = .ok ([c], digits.length) := by
    rw [read_hex marked, hex_code hexadecimal means]
  rw [decode_escape reads, List.drop_left]
  rfl

theorem decode_code {c : Char} {digits : List Char} (two : digits.length = 2)
    (hexadecimal : digits.all isHex = true) (means : code 16 digits = c.toNat)
    (rest : List Char) :
    decode ('\\' :: 'x' :: (digits ++ rest)) = (decode rest).map (c :: ·) :=
  decode_hex (two ▸ List.mem_cons_self) hexadecimal means rest

theorem letter?_of_isOctal {d : Char} (octal : isOctal d = true) : letter? d = none := by
  unfold letter?
  split
  case h_11 => rfl
  all_goals cases octal

theorem read_octal {d : Char} (octal : isOctal d = true) (text : List Char) :
    read d text =
      (character (code 8 (d :: (text.take 2).takeWhile isOctal))).map fun c =>
        ([c], ((text.take 2).takeWhile isOctal).length) := by
  have inner : d ≠ '\n' := by
    rintro rfl
    cases octal
  unfold read
  rw [letter?_of_isOctal octal]
  simp only [inner, octal, if_true, if_false]

theorem decode_octal {c : Char} {digits : List Char} (three : digits.length = 3)
    (octal : digits.all isOctal = true) (means : code 8 digits = c.toNat) (rest : List Char) :
    decode ('\\' :: (digits ++ rest)) = (decode rest).map (c :: ·) := by
  obtain ⟨first, second, third, rfl⟩ := List.length_eq_three.mp three
  obtain ⟨leading, middle, last⟩ : isOctal first = true ∧ isOctal second = true ∧
      isOctal third = true := by simpa using octal
  have more : ((second :: third :: rest).take 2).takeWhile isOctal = [second, third] := by
    simp [middle, last]
  have reads : read first (second :: third :: rest) = .ok ([c], 2) := by
    rw [read_octal leading, more, means, character_toNat]
    rfl
  exact decode_escape reads

theorem decode_letter {d c : Char} (meaning : letter? d = some c) (rest : List Char) :
    decode ('\\' :: d :: rest) = (decode rest).map (c :: ·) := by
  have reads : read d rest = .ok ([c], 0) := by
    unfold read
    rw [meaning]
  exact decode_escape reads

theorem decode_escape_error {d : Char} {text : List Char} {reason : Unusable}
    (fails : read d text = .error reason) : decode ('\\' :: d :: text) = .error reason := by
  rw [decode, if_pos rfl]
  simp only [fails]

theorem decode_continued (rest : List Char) : decode ('\\' :: '\n' :: rest) = decode rest := by
  have reads : read '\n' rest = .ok ([], 0) := rfl
  rw [decode_escape reads]
  cases decoded : decode rest <;> simp [decoded, Except.map]

section Waiting

variable {text : List Char}

/-- Whether a backslash is left without the character it takes, behind a text in front of which one
waits or does not. -/
def waits (waiting : Bool) (text : List Char) : Bool :=
  text.foldl (fun waiting c => !waiting && c == '\\') waiting

theorem waits_cons (waiting : Bool) (c : Char) (rest : List Char) :
    waits waiting (c :: rest) = waits (!waiting && c == '\\') rest := rfl

theorem waits_plain {c : Char} (plain : c ≠ '\\') (waiting : Bool) (rest : List Char) :
    waits waiting (c :: rest) = waits false rest := by
  rw [waits_cons, beq_eq_false_iff_ne.mpr plain, Bool.and_false]

theorem waits_append (waiting : Bool) (front rest : List Char) :
    waits waiting (front ++ rest) = waits (waits waiting front) rest := List.foldl_append

theorem waits_of_no_backslash (plain : '\\' ∉ text) : waits false text = false := by
  induction text with
  | nil => rfl
  | cons c rest ih =>
    rw [List.mem_cons, not_or] at plain
    rw [waits_plain (Ne.symm plain.1)]
    exact ih plain.2

theorem waits_of_filled (waiting : Bool) (filled : text ≠ []) (plain : '\\' ∉ text) :
    waits waiting text = false := by
  cases text with
  | nil => exact absurd rfl filled
  | cons c rest =>
    rw [List.mem_cons, not_or] at plain
    rw [waits_plain (Ne.symm plain.1)]
    exact waits_of_no_backslash plain.2

theorem isHex_of_isOctal {c : Char} (octal : isOctal c = true) : isHex c = true := by
  have below : '7' ≤ '9' := by decide
  simp only [isOctal, Bool.and_eq_true, decide_eq_true_eq] at octal
  have digit : c.isDigit = true := by
    rw [Char.isDigit, Bool.and_eq_true, decide_eq_true_eq, decide_eq_true_eq]
    exact ⟨octal.1, Char.le_trans octal.2 below⟩
  rw [isHex, digit, Bool.true_or, Bool.true_or]

theorem hex_takes {letter : Char} {count taken : Nat} {meaning : List Char}
    (reads : hex letter count text = .ok (meaning, taken)) :
    ∀ c ∈ text.take taken, isHex c = true := by
  unfold hex at reads
  dsimp only at reads
  split at reads
  next complete =>
    obtain ⟨c, -, same⟩ := Result.map_eq_ok.mp reads
    cases same
    rw [Bool.and_eq_true] at complete
    exact List.all_eq_true.mp complete.2
  · cases reads

theorem read_takes {d : Char} {meaning : List Char} {taken : Nat}
    (reads : read d text = .ok (meaning, taken)) : ∀ c ∈ text.take taken, isHex c = true := by
  have nothing : ∀ c ∈ text.take 0, isHex c = true := nofun
  by_cases octal : isOctal d = true
  · rw [read_octal octal] at reads
    obtain ⟨c, -, same⟩ := Result.map_eq_ok.mp reads
    cases same
    have start : (text.take 2).takeWhile isOctal <+: text :=
      (List.takeWhile_prefix _).trans (List.take_prefix 2 text)
    rw [← List.prefix_iff_eq_take.mp start]
    exact fun c member => isHex_of_isOctal (List.all_eq_true.mp List.all_takeWhile c member)
  · unfold read at reads
    split at reads
    · cases reads
      exact nothing
    · rw [if_neg octal] at reads
      split_ifs at reads
      · cases reads
        exact nothing
      · exact hex_takes reads
      · exact hex_takes reads
      · exact hex_takes reads
      · cases reads
        exact nothing

/-- A backslash to which no character is left makes the text unusable. -/
theorem decode_waits (left : waits false text = true) :
    ∃ reason, decode text = .error reason := by
  induction size : text.length using Nat.strongRecOn generalizing text with
  | _ n ih =>
    cases text with
    | nil => cases left
    | cons c rest =>
      rw [List.length_cons] at size
      by_cases backslash : c = '\\'
      · subst backslash
        cases rest with
        | nil => exact ⟨.finalBackslash, by rw [decode, if_pos rfl]⟩
        | cons d later =>
          cases reads : read d later with
          | error reason => exact ⟨reason, decode_escape_error reads⟩
          | ok result =>
            obtain ⟨meaning, taken⟩ := result
            have plain : '\\' ∉ later.take taken := fun member => by
              cases read_takes reads _ member
            -- The digits that the escape takes leave the waiting backslash to what comes after.
            have after : waits false (later.drop taken) = true :=
              calc waits false (later.drop taken)
                  = waits (waits false (later.take taken)) (later.drop taken) := by
                    rw [waits_of_no_backslash plain]
                _ = waits false later := by rw [← waits_append, List.take_append_drop]
                _ = true := left
            have shorter : (later.drop taken).length < n := by
              rw [List.length_drop]
              rw [List.length_cons] at size
              omega
            obtain ⟨reason, failed⟩ := ih _ shorter after rfl
            refine ⟨reason, ?_⟩
            rw [decode_escape reads, failed]
            rfl
      · rw [waits_plain backslash] at left
        obtain ⟨reason, failed⟩ := ih _ (by omega) left rfl
        refine ⟨reason, ?_⟩
        rw [decode_plain backslash, failed]
        rfl

end Waiting

end Script8255.Escape
