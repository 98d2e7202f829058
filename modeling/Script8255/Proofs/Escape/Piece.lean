import Mathlib.Data.List.TakeWhile
import Script8255.Proofs.Escape.Numeral
import Script8255.Resolve

/-! Texts with escapes cut into pieces: which pieces stand for characters, and which are the reason
why a text cannot be decoded. -/

namespace Script8255.Escape

section Digits

variable {base most : Nat} {digits rest : List Char} {p : Char → Bool}

structure Digits (base most : Nat) (digits rest : List Char) : Prop where
  all : ∀ c ∈ digits, IsDigit base c
  within : digits.length ≤ most
  stops : digits.length = most ∨ ∀ c ∈ rest.head?, ¬IsDigit base c

theorem exists_digits (base most : Nat) (text : List Char) :
    ∃ digits rest, text = digits ++ rest ∧ Digits base most digits rest := by
  induction most generalizing text with
  | zero => exact ⟨[], text, rfl, nofun, Nat.le_refl 0, Or.inl rfl⟩
  | succ most ih =>
    cases text with
    | nil => exact ⟨[], [], rfl, nofun, Nat.zero_le _, Or.inr nofun⟩
    | cons c later =>
      by_cases first : IsDigit base c
      · obtain ⟨digits, rest, rfl, found⟩ := ih later
        refine ⟨c :: digits, rest, rfl, List.forall_mem_cons.mpr ⟨first, found.all⟩,
          Nat.succ_le_succ found.within, ?_⟩
        exact found.stops.imp_left fun full => congrArg (· + 1) full
      · refine ⟨[], c :: later, rfl, nofun, Nat.zero_le _, Or.inr ?_⟩
        intro d here
        cases here
        exact first

theorem Digits.takeWhile_eq (found : Digits base most digits rest)
    (tested : ∀ c, p c = true ↔ IsDigit base c) :
    ((digits ++ rest).take most).takeWhile p = digits := by
  obtain ⟨all, within, stops⟩ := found
  induction digits generalizing most with
  | nil =>
    rcases stops with rfl | stops
    · rfl
    · cases rest with
      | nil => simp
      | cons c later =>
        have other : ¬p c = true := mt (tested c).mp (stops c rfl)
        cases most with
        | zero => rfl
        | succ most => rw [List.nil_append, List.take_succ_cons, List.takeWhile_cons_of_neg other]
  | cons c later ih =>
    obtain ⟨first, others⟩ := List.forall_mem_cons.mp all
    obtain ⟨fewer, rfl⟩ := Nat.exists_eq_add_one_of_ne_zero (Nat.ne_zero_of_lt within)
    have left : later.length = fewer ∨ ∀ c ∈ rest.head?, ¬IsDigit base c :=
      stops.imp_left Nat.succ.inj
    rw [List.cons_append, List.take_succ_cons, List.takeWhile_cons_of_pos ((tested c).mpr first),
      ih others (Nat.le_of_succ_le_succ within) left]

theorem Digits.unique {others behind : List Char} (found : Digits base most digits rest)
    (again : Digits base most others behind) (same : digits ++ rest = others ++ behind) :
    digits = others := by
  classical
  have tested : ∀ c, decide (IsDigit base c) = true ↔ IsDigit base c := fun c => decide_eq_true_iff
  rw [← found.takeWhile_eq tested, same, again.takeWhile_eq tested]

end Digits

/-- A piece of a text: a character that is no backslash, or a backslash with all that it takes. -/
inductive Piece where
  | plain (c : Char)
  | final
  | escape (d : Char)
  | octal (first : Char) (more : List Char)
  | hex (mark : Char) (digits : List Char)

namespace Piece

def text : Piece → List Char
  | plain c => [c]
  | final => ['\\']
  | escape d => ['\\', d]
  | octal first more => '\\' :: first :: more
  | hex mark digits => '\\' :: mark :: digits

def digits : Piece → List Char
  | octal first more => first :: more
  | hex _ digits => digits
  | plain _ | final | escape _ => []

def base : Piece → Nat
  | octal _ _ => 8
  | _ => 16

/-- Which piece comes first in a text, in front of the rest. A backslash takes as many digits as
there are, up to three octal ones and as many hexadecimal ones as its mark asks for. -/
inductive First : Piece → List Char → Prop
  | plain {c : Char} {rest : List Char} : c ≠ '\\' → First (.plain c) rest
  | final : First .final []
  | escape {d : Char} {rest : List Char} :
    ¬IsDigit 8 d → (∀ count, (d, count) ∉ hexMarks) → First (.escape d) rest
  | octal {first : Char} {more rest : List Char} :
    IsDigit 8 first → Digits 8 2 more rest → First (.octal first more) rest
  | hex {mark : Char} {count : Nat} {digits rest : List Char} :
    (mark, count) ∈ hexMarks → Digits 16 count digits rest → First (.hex mark digits) rest

inductive Bad : Piece → Unusable → Prop
  | final : Bad .final .finalBackslash
  | named : Bad (.escape 'N') .namedCharacter
  | truncated {mark : Char} {count : Nat} {digits : List Char} :
    (mark, count) ∈ hexMarks → digits.length < count →
      Bad (.hex mark digits) (.truncatedEscape mark)
  | illegal {mark : Char} {digits : List Char} {n : Nat} :
    mark = 'u' ∨ mark = 'U' → (mark, digits.length) ∈ hexMarks → Numeral 16 digits n →
      0xD800 ≤ n ∧ n ≤ 0xDFFF ∨ 0x10FFFF < n → Bad (.hex mark digits) (.illegalCharacter n)

/-- What the other pieces stand for. An unknown escape stands for itself, a continued line for
nothing, and each of the rest for one character. -/
inductive Means : Piece → List Char → Prop
  | plain (c : Char) : Means (.plain c) [c]
  | letter {d c : Char} : (d, c) ∈ letterMeanings → Means (.escape d) [c]
  | continued : Means (.escape '\n') []
  | unknown {d : Char} :
    d ≠ '\n' → d ≠ 'N' → (∀ c, (d, c) ∉ letterMeanings) → Means (.escape d) ['\\', d]
  | octal {first c : Char} {more : List Char} :
    Numeral 8 (first :: more) c.toNat → Means (.octal first more) [c]
  | hex {mark : Char} {digits : List Char} {c : Char} :
    (mark, digits.length) ∈ hexMarks → Numeral 16 digits c.toNat → Means (.hex mark digits) [c]

end Piece

inductive Pieces : List Char → List Piece → Prop
  | nil : Pieces [] []
  | cons {piece : Piece} {rest : List Char} {later : List Piece} :
    piece.First rest → Pieces rest later → Pieces (piece.text ++ rest) (piece :: later)

section Marks

variable {mark : Char} {count : Nat}

theorem not_isDigit_of_mark (marked : (mark, count) ∈ hexMarks) : ¬IsDigit 8 mark := by
  have each : ∀ entry ∈ hexMarks, isOctal entry.1 = false := by decide
  rw [← isOctal_iff, each _ marked]
  exact Bool.false_ne_true

theorem mark_unique {other : Nat} (marked : (mark, count) ∈ hexMarks)
    (again : (mark, other) ∈ hexMarks) : count = other := by
  have each : ∀ entry ∈ hexMarks, ∀ other ∈ hexMarks, entry.1 = other.1 → entry.2 = other.2 := by
    decide
  exact each _ marked _ again rfl

theorem count_le_eight (marked : (mark, count) ∈ hexMarks) : count ≤ 8 := by
  have each : ∀ entry ∈ hexMarks, entry.2 ≤ 8 := by decide
  exact each _ marked

end Marks

section First

theorem Piece.text_ne_nil (piece : Piece) : piece.text ≠ [] := by
  cases piece <;> exact List.cons_ne_nil _ _

variable {piece other : Piece} {rest behind : List Char}

theorem exists_first {text : List Char} (filled : text ≠ []) :
    ∃ (piece : Piece) (rest : List Char), text = piece.text ++ rest ∧ piece.First rest := by
  obtain ⟨c, later, rfl⟩ := List.exists_cons_of_ne_nil filled
  by_cases backslash : c = '\\'
  · subst backslash
    cases later with
    | nil => exact ⟨.final, [], rfl, .final⟩
    | cons d after =>
      by_cases octal : IsDigit 8 d
      · obtain ⟨more, rest, rfl, found⟩ := exists_digits 8 2 after
        exact ⟨.octal d more, rest, rfl, .octal octal found⟩
      · by_cases marked : ∃ count, (d, count) ∈ hexMarks
        · obtain ⟨count, marked⟩ := marked
          obtain ⟨digits, rest, rfl, found⟩ := exists_digits 16 count after
          exact ⟨.hex d digits, rest, rfl, .hex marked found⟩
        · exact ⟨.escape d, after, rfl, .escape octal (not_exists.mp marked)⟩
  · exact ⟨.plain c, later, rfl, .plain backslash⟩

theorem Piece.First.unique (first : piece.First rest) (second : other.First behind)
    (same : piece.text ++ rest = other.text ++ behind) : piece = other := by
  cases first with
  | plain plain =>
    cases second with
    | plain => exact congrArg Piece.plain (List.cons.inj same).1
    | final | escape | octal | hex => exact absurd (List.cons.inj same).1 plain
  | final =>
    cases second with
    | plain plain => exact absurd (List.cons.inj same).1.symm plain
    | final => rfl
    | escape | octal | hex => cases same
  | escape unread unmarked =>
    cases second with
    | plain plain => exact absurd (List.cons.inj same).1.symm plain
    | final => cases same
    | escape =>
      cases same
      rfl
    | octal digit =>
      cases same
      exact absurd digit unread
    | hex marked =>
      cases same
      exact absurd marked (unmarked _)
  | octal digit found =>
    cases second with
    | plain plain => exact absurd (List.cons.inj same).1.symm plain
    | final => cases same
    | escape unread =>
      cases same
      exact absurd digit unread
    | octal _ again =>
      obtain ⟨rfl, behind⟩ := List.cons.inj (List.cons.inj same).2
      rw [found.unique again behind]
    | hex marked =>
      cases (List.cons.inj (List.cons.inj same).2).1
      exact absurd digit (not_isDigit_of_mark marked)
  | hex marked found =>
    cases second with
    | plain plain => exact absurd (List.cons.inj same).1.symm plain
    | final => cases same
    | escape _ unmarked =>
      cases same
      exact absurd marked (unmarked _)
    | octal digit =>
      cases (List.cons.inj (List.cons.inj same).2).1
      exact absurd digit (not_isDigit_of_mark marked)
    | hex again others =>
      obtain ⟨rfl, behind⟩ := List.cons.inj (List.cons.inj same).2
      obtain rfl := mark_unique marked again
      rw [found.unique others behind]

theorem exists_pieces (text : List Char) : ∃ pieces, Pieces text pieces := by
  induction size : text.length using Nat.strongRecOn generalizing text with
  | _ n ih =>
    by_cases empty : text = []
    · subst empty
      exact ⟨[], .nil⟩
    · obtain ⟨piece, rest, rfl, first⟩ := exists_first empty
      have shorter : rest.length < n := by
        rw [← size, List.length_append]
        exact Nat.lt_add_of_pos_left (List.length_pos_iff.mpr piece.text_ne_nil)
      obtain ⟨later, read⟩ := ih _ shorter rest rfl
      exact ⟨piece :: later, .cons first read⟩

theorem Pieces.cases_of {text : List Char} {pieces : List Piece} (read : Pieces text pieces) :
    (text = [] ∧ pieces = []) ∨ ∃ (piece : Piece) (rest : List Char) (later : List Piece),
      text = piece.text ++ rest ∧ pieces = piece :: later ∧ piece.First rest ∧
        Pieces rest later := by
  cases read with
  | nil => exact Or.inl ⟨rfl, rfl⟩
  | cons first read => exact Or.inr ⟨_, _, _, rfl, rfl, first, read⟩

/-- A text has one reading. -/
theorem Pieces.unique {text : List Char} {pieces others : List Piece} (read : Pieces text pieces)
    (again : Pieces text others) : pieces = others := by
  induction read generalizing others with
  | nil =>
    rcases again.cases_of with ⟨-, rfl⟩ | ⟨piece, rest, later, same, -⟩
    · rfl
    · exact absurd (List.append_eq_nil_iff.mp same.symm).1 piece.text_ne_nil
  | @cons piece rest later first read ih =>
    rcases again.cases_of with ⟨empty, -⟩ | ⟨other, behind, after, same, rfl, second, again⟩
    · exact absurd (List.append_eq_nil_iff.mp empty).1 piece.text_ne_nil
    · obtain rfl := first.unique second same
      obtain rfl := List.append_cancel_left same
      rw [ih again]

end First

section Meaning

variable {piece : Piece} {rest meaning : List Char} {reason : Unusable}

theorem exists_char {n : Nat} (valid : n.isValidChar) : ∃ c : Char, c.toNat = n :=
  ⟨Char.ofNatAux n valid, rfl⟩

theorem letter?_eq_some_iff {d c : Char} : letter? d = some c ↔ (d, c) ∈ letterMeanings := by
  refine ⟨fun known => ?_, letter?_of_mem⟩
  unfold letter? at known
  split at known <;> cases known <;> decide

theorem read_unknown {d : Char} (unread : ¬IsDigit 8 d) (unmarked : ∀ count, (d, count) ∉ hexMarks)
    (continued : d ≠ '\n') (named : d ≠ 'N') (unknown : ∀ c, (d, c) ∉ letterMeanings)
    (text : List Char) : read d text = .ok (['\\', d], 0) := by
  have marks : d ≠ 'x' ∧ d ≠ 'u' ∧ d ≠ 'U' := by
    refine ⟨?_, ?_, ?_⟩
    · rintro rfl
      exact unmarked 2 (by decide)
    · rintro rfl
      exact unmarked 4 (by decide)
    · rintro rfl
      exact unmarked 8 (by decide)
  have none : letter? d = none :=
    Option.eq_none_iff_forall_ne_some.mpr fun c => mt letter?_eq_some_iff.mp (unknown c)
  unfold read
  rw [none]
  simp [continued, named, marks, mt isOctal_iff.mp unread]

theorem Piece.Means.decode_append (means : piece.Means meaning) (first : piece.First rest) :
    decode (piece.text ++ rest) = (decode rest).map (meaning ++ ·) := by
  cases means with
  | plain c =>
    cases first with
    | plain plain => exact decode_plain plain rest
  | letter known => exact decode_letter (letter?_of_mem known) rest
  | continued =>
    have reads : read '\n' rest = .ok ([], 0) := rfl
    exact decode_escape reads
  | unknown continued named unknown =>
    cases first with
    | escape unread unmarked =>
      exact decode_escape (read_unknown unread unmarked continued named unknown rest)
  | @octal d c more numeral =>
    cases first with
    | octal digit found =>
      have taken := found.takeWhile_eq fun c => isOctal_iff
      have reads : read d (more ++ rest) = .ok ([c], more.length) := by
        rw [read_octal (isOctal_iff.mpr digit), taken, numeral.code_eq, character_toNat]
        rfl
      have decoded := decode_escape reads
      rwa [List.drop_left] at decoded
  | hex marked numeral => exact decode_hex marked numeral.all_isHex numeral.code_eq rest

theorem hex_truncated {mark : Char} {count : Nat} {digits : List Char}
    (found : Digits 16 count digits rest) (short : digits.length < count) :
    hex mark count (digits ++ rest) = .error (.truncatedEscape mark) := by
  have stops := found.stops.resolve_left (Nat.ne_of_lt short)
  have incomplete : ¬(((digits ++ rest).take count).length = count ∧
      ((digits ++ rest).take count).all isHex = true) := by
    rintro ⟨full, all⟩
    have kept := found.takeWhile_eq fun c => isHex_iff
    rw [List.takeWhile_eq_self_iff.mpr (List.all_eq_true.mp all)] at kept
    rw [kept] at full
    omega
  unfold hex
  dsimp only
  rw [if_neg (by simpa using incomplete)]

/-- The first piece without a meaning ends the decoding with its own reason. -/
theorem Piece.Bad.decode_append (bad : piece.Bad reason) (first : piece.First rest) :
    decode (piece.text ++ rest) = .error reason := by
  cases bad with
  | final =>
    cases first with
    | final =>
      change decode ['\\'] = _
      rw [decode, if_pos rfl]
  | named => exact decode_escape_error rfl
  | truncated marked short =>
    cases first with
    | hex again found =>
      obtain rfl := mark_unique marked again
      exact decode_escape_error ((read_hex marked _).trans (hex_truncated found short))
  | @illegal mark digits n _ marked numeral outside =>
    have invalid : ¬n.isValidChar := by
      unfold Nat.isValidChar
      omega
    have reads : Escape.hex mark digits.length (digits ++ rest) =
        .error (.illegalCharacter n) := by
      unfold Escape.hex
      simp only [List.take_left, numeral.all_isHex, numeral.code_eq, decide_true, Bool.and_true,
        if_true, character, if_neg invalid]
      rfl
    exact decode_escape_error ((read_hex marked _).trans reads)

theorem Piece.Means.not_bad (means : piece.Means meaning) : ¬piece.Bad reason := by
  intro bad
  cases bad with
  | final => cases means
  | named =>
    cases means with
    | letter known => simp [letterMeanings] at known
    | unknown _ named => exact named rfl
  | truncated marked short =>
    cases means with
    | hex again =>
      have full := mark_unique marked again
      omega
  | illegal _ _ numeral outside =>
    cases means with
    | @hex _ _ c _ other =>
      have valid : c.toNat.isValidChar := c.valid
      rw [other.unique numeral] at valid
      unfold Nat.isValidChar at valid
      omega

theorem long_mark {mark : Char} {count n : Nat} (marked : (mark, count) ∈ hexMarks)
    (bounded : n < 16 ^ count) (invalid : ¬n.isValidChar) : mark = 'u' ∨ mark = 'U' := by
  simp only [hexMarks, List.mem_cons, List.not_mem_nil, or_false, Prod.mk.injEq] at marked
  rcases marked with ⟨rfl, rfl⟩ | ⟨rfl, -⟩ | ⟨rfl, -⟩
  · unfold Nat.isValidChar at invalid
    omega
  · exact Or.inl rfl
  · exact Or.inr rfl

theorem Piece.First.means_or_bad (first : piece.First rest) :
    (∃ meaning, piece.Means meaning) ∨ ∃ reason, piece.Bad reason := by
  cases first with
  | plain => exact Or.inl ⟨_, .plain _⟩
  | final => exact Or.inr ⟨_, .final⟩
  | @escape d =>
    by_cases continued : d = '\n'
    · subst continued
      exact Or.inl ⟨_, .continued⟩
    by_cases named : d = 'N'
    · subst named
      exact Or.inr ⟨_, .named⟩
    by_cases known : ∃ c, (d, c) ∈ letterMeanings
    · obtain ⟨c, known⟩ := known
      exact Or.inl ⟨_, .letter known⟩
    · exact Or.inl ⟨_, .unknown continued named (not_exists.mp known)⟩
  | @octal d more rest digit found =>
    have numeral := numeral_code (List.forall_mem_cons.mpr ⟨digit, found.all⟩)
    have bounded : code 8 (d :: more) < 8 ^ 3 :=
      code_lt_pow numeral.isDigit (Nat.succ_le_succ found.within) (by decide)
    obtain ⟨c, same⟩ := exists_char (Or.inl (by omega) : (code 8 (d :: more)).isValidChar)
    rw [← same] at numeral
    exact Or.inl ⟨_, .octal numeral⟩
  | @hex mark count digits rest marked found =>
    by_cases full : digits.length = count
    · subst full
      have numeral := numeral_code found.all
      by_cases valid : (code 16 digits).isValidChar
      · obtain ⟨c, same⟩ := exists_char valid
        rw [← same] at numeral
        exact Or.inl ⟨_, .hex marked numeral⟩
      · have long := long_mark marked (numeral.lt_pow (by decide)) valid
        refine Or.inr ⟨_, .illegal long marked numeral ?_⟩
        unfold Nat.isValidChar at valid
        omega
    · exact Or.inr ⟨_, .truncated marked (Nat.lt_of_le_of_ne found.within full)⟩

theorem Piece.First.code_lt {read : List Char} (first : piece.First rest)
    (start : read <+: piece.digits) : code piece.base read < 2 ^ 32 := by
  cases first with
  | plain | final | escape =>
    rw [List.prefix_nil.mp start]
    exact Nat.two_pow_pos 32
  | @octal d more rest digit found =>
    have all : ∀ c ∈ read, IsDigit 8 c := fun c member =>
      List.forall_mem_cons.mpr ⟨digit, found.all⟩ c (start.subset member)
    have within : read.length ≤ 3 :=
      Nat.le_trans start.length_le (Nat.succ_le_succ found.within)
    have bounded : code 8 read < 8 ^ 3 := code_lt_pow all within (by decide)
    exact Nat.lt_trans bounded (by decide)
  | @hex mark count digits rest marked found =>
    have all : ∀ c ∈ read, IsDigit 16 c := fun c member => found.all c (start.subset member)
    have within : read.length ≤ 8 :=
      Nat.le_trans start.length_le (Nat.le_trans found.within (count_le_eight marked))
    exact code_lt_pow all within (by decide)

end Meaning

section Texts

variable {text : List Char} {pieces : List Piece} {reason : Unusable}

theorem Pieces.first_of_mem (read : Pieces text pieces) {piece : Piece} (member : piece ∈ pieces) :
    ∃ rest, piece.First rest := by
  induction read with
  | nil => cases member
  | cons first _ ih =>
    rcases List.mem_cons.mp member with rfl | later
    · exact ⟨_, first⟩
    · exact ih later

theorem not_bad_of_means {meanings : List (List Char)}
    (means : List.Forall₂ Piece.Means pieces meanings) :
    ∀ piece ∈ pieces, ∀ reason, ¬piece.Bad reason := by
  induction means with
  | nil => exact nofun
  | cons here _ ih => exact List.forall_mem_cons.mpr ⟨fun _ => here.not_bad, ih⟩

theorem Pieces.decode_of_means (read : Pieces text pieces) {meanings : List (List Char)}
    (means : List.Forall₂ Piece.Means pieces meanings) : decode text = .ok meanings.flatten := by
  induction read generalizing meanings with
  | nil =>
    cases means
    rw [decode]
    rfl
  | cons first _ ih =>
    cases means with
    | cons here others =>
      rw [here.decode_append first, ih others]
      rfl

theorem Pieces.decode_of_bad {front later : List Piece} {bad : Piece}
    (read : Pieces text (front ++ bad :: later))
    (good : ∀ piece ∈ front, ∀ reason, ¬piece.Bad reason) (fails : bad.Bad reason) :
    decode text = .error reason := by
  induction front generalizing text with
  | nil =>
    cases read with
    | cons first _ => exact fails.decode_append first
  | cons piece front ih =>
    obtain ⟨here, others⟩ := List.forall_mem_cons.mp good
    cases read with
    | cons first read =>
      obtain ⟨meaning, means⟩ := first.means_or_bad.resolve_right (not_exists.mpr here)
      rw [means.decode_append first, ih read others]
      rfl

theorem Pieces.means_or_bad (read : Pieces text pieces) :
    (∃ meanings, List.Forall₂ Piece.Means pieces meanings) ∨
      ∃ front bad later reason, pieces = front ++ bad :: later ∧
        (∀ piece ∈ front, ∀ other, ¬piece.Bad other) ∧ bad.Bad reason := by
  induction read with
  | nil => exact Or.inl ⟨[], .nil⟩
  | @cons piece rest later first _ ih =>
    rcases first.means_or_bad with ⟨meaning, means⟩ | ⟨reason, bad⟩
    · rcases ih with ⟨meanings, others⟩ | ⟨front, bad, after, reason, rfl, good, fails⟩
      · exact Or.inl ⟨meaning :: meanings, .cons means others⟩
      · refine Or.inr ⟨piece :: front, bad, after, reason, rfl, ?_, fails⟩
        exact List.forall_mem_cons.mpr ⟨fun _ => means.not_bad, good⟩
    · exact Or.inr ⟨[], piece, later, reason, rfl, nofun, bad⟩

theorem decode_ne_range (text : List Char) (token : String) :
    decode text ≠ .error (.literalRange token) := by
  obtain ⟨pieces, read⟩ := exists_pieces text
  intro failed
  rcases read.means_or_bad with ⟨meanings, means⟩ | ⟨front, bad, later, reason, rfl, good, because⟩
  · cases failed.symm.trans (read.decode_of_means means)
  · cases failed.symm.trans (read.decode_of_bad good because)
    cases because

/-- Every text has one reading as pieces. Decoding fails exactly when one of them is bad, with the
reason of the first such piece, which is never fatal. Otherwise the pieces stand one after the other
for the decoded text. No code that is read on the way leaves a word of 32 bits. -/
theorem decode_fails_at_first_bad_piece (text : List Char) :
    ∃ pieces, (∀ others, Pieces text others ↔ others = pieces) ∧
      ((∃ reason, decode text = .error reason) ↔ ∃ piece ∈ pieces, ∃ reason, piece.Bad reason) ∧
      (∀ reason, decode text = .error reason ↔
        ∃ front bad later, pieces = front ++ bad :: later ∧
          (∀ piece ∈ front, ∀ other, ¬piece.Bad other) ∧ bad.Bad reason) ∧
      (∀ decoded, decode text = .ok decoded ↔
        ∃ meanings, List.Forall₂ Piece.Means pieces meanings ∧ meanings.flatten = decoded) ∧
      (∀ (store : Store) (token : List Char) (reason : Unusable),
        interpolate store (trimQuotes token) = .ok text → decode text = .error reason →
          resolveText store token = .error (.unusable reason) ∧
            (Failure.unusable reason).isFatal = false) ∧
      ∀ piece ∈ pieces, ∀ read, read <+: piece.digits → code piece.base read < 2 ^ 32 := by
  obtain ⟨pieces, read⟩ := exists_pieces text
  have failed (reason : Unusable) : decode text = .error reason ↔
      ∃ front bad later, pieces = front ++ bad :: later ∧
        (∀ piece ∈ front, ∀ other, ¬piece.Bad other) ∧ bad.Bad reason := by
    constructor
    · intro fails
      rcases read.means_or_bad with ⟨meanings, means⟩ |
        ⟨front, bad, later, other, rfl, good, because⟩
      · cases fails.symm.trans (read.decode_of_means means)
      · cases fails.symm.trans (read.decode_of_bad good because)
        exact ⟨front, bad, later, rfl, good, because⟩
    · rintro ⟨front, bad, later, rfl, good, because⟩
      exact read.decode_of_bad good because
  refine ⟨pieces, ?_, ?_, failed, ?_, ?_, ?_⟩
  · intro others
    constructor
    · exact fun again => again.unique read
    · rintro rfl
      exact read
  · constructor
    · rintro ⟨reason, fails⟩
      obtain ⟨front, bad, later, rfl, -, because⟩ := (failed reason).mp fails
      exact ⟨bad, by simp, reason, because⟩
    · rintro ⟨piece, member, reason, because⟩
      rcases read.means_or_bad with ⟨meanings, means⟩ | ⟨front, bad, later, other, cut⟩
      · exact absurd because (not_bad_of_means means piece member reason)
      · exact ⟨other, (failed other).mpr ⟨front, bad, later, cut⟩⟩
  · intro decoded
    constructor
    · intro done
      rcases read.means_or_bad with ⟨meanings, means⟩ | ⟨front, bad, later, other, cut⟩
      · cases done.symm.trans (read.decode_of_means means)
        exact ⟨meanings, means, rfl⟩
      · cases done.symm.trans ((failed other).mpr ⟨front, bad, later, cut⟩)
    · rintro ⟨meanings, means, rfl⟩
      exact read.decode_of_means means
  · intro store token reason shown fails
    refine ⟨?_, rfl⟩
    unfold resolveText
    rw [shown]
    dsimp only
    rw [fails]
  · intro piece member digits start
    obtain ⟨rest, first⟩ := read.first_of_mem member
    exact first.code_lt start

end Texts

end Script8255.Escape
