import Script8255.Cast
import Script8255.Proofs.Escape.Piece
import Script8255.Proofs.Literal
import Script8255.Proofs.Text.Blank

/-! Integers in decimal: the forms that operands and casts accept, and what they denote. -/

namespace Script8255

namespace Text

variable {text digits : List Char} {n : Int} {m : Nat}

structure Natural (digits : List Char) (m : Nat) : Prop where
  filled : digits ≠ []
  numeral : Escape.Numeral 10 digits m

inductive Integer : List Char → Int → Prop
  | plain {digits : List Char} {m : Nat} : Natural digits m → Integer digits m
  | minus {digits : List Char} {m : Nat} : Natural digits m → Integer ('-' :: digits) (-m)

inductive Signed : List Char → Int → Prop
  | integer {text : List Char} {n : Int} : Integer text n → Signed text n
  | plus {digits : List Char} {m : Nat} : Natural digits m → Signed ('+' :: digits) m

def Padded (text : List Char) (n : Int) : Prop :=
  ∃ before number after, text = before ++ number ++ after ∧ (∀ c ∈ before, isBlank c = true) ∧
    (∀ c ∈ after, isBlank c = true) ∧ Signed number n

section Readers

theorem ofDigitChars_eq_code (decimal : ∀ c ∈ digits, c.isDigit = true) :
    Nat.ofDigitChars 10 digits 0 = Escape.code 10 digits := by
  rw [Nat.ofDigitChars_eq_foldl]
  refine List.foldl_ext _ _ 0 fun sofar c member => ?_
  simp [Escape.digit, decimal c member, Nat.mul_comm]

theorem natural?_eq_some_iff : natural? digits = some m ↔ Natural digits m := by
  unfold natural?
  constructor
  · intro found
    split at found
    · cases found
    next accepted =>
      simp only [Bool.or_eq_true, Bool.not_eq_true', not_or, Bool.not_eq_false,
        List.all_eq_true] at accepted
      obtain ⟨filled, decimal⟩ := accepted
      rw [ofDigitChars_eq_code decimal] at found
      cases found
      exact ⟨mt List.isEmpty_iff.mpr filled,
        Escape.numeral_code fun c member => Escape.isDigit_iff.mp (decimal c member)⟩
  · rintro ⟨filled, numeral⟩
    have decimal : ∀ c ∈ digits, c.isDigit = true := fun c member =>
      Escape.isDigit_iff.mpr (numeral.isDigit c member)
    rw [if_neg (by simpa [filled] using decimal), ofDigitChars_eq_code decimal, numeral.code_eq]

theorem Natural.decimal (natural : Natural digits m) {c : Char} (member : c ∈ digits) :
    c.isDigit = true :=
  Escape.isDigit_iff.mpr (natural.numeral.isDigit c member)

theorem Natural.no_sign (natural : Natural digits m) {c : Char} (sign : c.isDigit = false) :
    c ∉ digits := by
  intro member
  rw [natural.decimal member] at sign
  cases sign

theorem integer?_eq_some_iff : integer? text = some n ↔ Integer text n := by
  unfold integer?
  constructor
  · intro found
    split at found
    · obtain ⟨m, read, rfl⟩ := Option.map_eq_some_iff.mp found
      exact .minus (natural?_eq_some_iff.mp read)
    · obtain ⟨m, read, rfl⟩ := Option.map_eq_some_iff.mp found
      exact .plain (natural?_eq_some_iff.mp read)
  · intro integer
    cases integer with
    | minus natural =>
      simp [natural?_eq_some_iff.mpr natural]
    | plain natural =>
      split
      · exact absurd List.mem_cons_self (natural.no_sign rfl)
      · simp [natural?_eq_some_iff.mpr natural]

theorem signed?_eq_some_iff : signed? text = some n ↔ Signed text n := by
  unfold signed?
  constructor
  · intro found
    split at found
    · obtain ⟨m, read, rfl⟩ := Option.map_eq_some_iff.mp found
      exact .plus (natural?_eq_some_iff.mp read)
    · exact .integer (integer?_eq_some_iff.mp found)
  · intro signed
    cases signed with
    | plus natural => simp [natural?_eq_some_iff.mpr natural]
    | integer integer =>
      split
      next digits =>
        cases integer with
        | plain natural => exact absurd List.mem_cons_self (natural.no_sign rfl)
      · exact integer?_eq_some_iff.mpr integer

theorem digitValues_no_blank : ∀ entry ∈ Escape.digitValues, isBlank entry.1 = false := by
  simp [Escape.digitValues, isBlank]

theorem Natural.no_blank (natural : Natural digits m) : ∀ c ∈ digits, isBlank c = false := by
  intro c member
  obtain ⟨value, -, known⟩ := natural.numeral.isDigit c member
  exact digitValues_no_blank (c, value) known

theorem Signed.trimmed (signed : Signed text n) : Trimmed text := by
  have marked {digits : List Char} {m : Nat} (natural : Natural digits m) {sign : Char}
      (shown : isBlank sign = false) : Trimmed (sign :: digits) :=
    trimmed_of_no_blank (List.cons_ne_nil _ _) (List.forall_mem_cons.mpr ⟨shown, natural.no_blank⟩)
  cases signed with
  | plus natural => exact marked natural rfl
  | integer integer =>
    cases integer with
    | plain natural => exact trimmed_of_no_blank natural.filled natural.no_blank
    | minus natural => exact marked natural rfl

theorem Integer.padded (integer : Integer text n) : Padded text n :=
  ⟨[], text, [], by simp, nofun, nofun, .integer integer⟩

theorem signed?_trim_eq_some_iff : signed? (trim text) = some n ↔ Padded text n := by
  rw [signed?_eq_some_iff]
  constructor
  · intro signed
    obtain ⟨before, after, whole, start, finish⟩ := exists_trim text
    exact ⟨before, trim text, after, whole, start, finish, signed⟩
  · rintro ⟨before, number, after, rfl, start, finish, signed⟩
    rw [trim_padded signed.trimmed start finish]
    exact signed

end Readers

section Lengths

theorem Natural.length_le (natural : Natural digits m) :
    (Nat.toDigits 10 m).length ≤ digits.length :=
  (Nat.length_toDigits_le_iff (by decide) (List.length_pos_of_ne_nil natural.filled)).mpr
    (natural.numeral.lt_pow (by decide))

theorem Integer.length_le (integer : Integer text n) : (ofInt n).length ≤ text.length := by
  cases integer with
  | plain natural => exact natural.length_le
  | @minus digits m natural =>
    have shorter := natural.length_le
    cases m with
    | zero => exact Nat.le_succ_of_le shorter
    | succ m => exact Nat.succ_le_succ shorter

theorem Signed.length_le (signed : Signed text n) : (ofInt n).length ≤ text.length := by
  cases signed with
  | integer integer => exact integer.length_le
  | plus natural => exact Nat.le_succ_of_le natural.length_le

theorem Padded.length_le (padded : Padded text n) : (ofInt n).length ≤ text.length := by
  obtain ⟨before, number, after, rfl, -, -, signed⟩ := padded
  have shorter := signed.length_le
  simp only [List.length_append]
  omega

theorem utf8ByteSize_cons (c : Char) (rest : List Char) :
    (String.ofList (c :: rest)).utf8ByteSize = c.utf8Size + (String.ofList rest).utf8ByteSize := by
  rw [← List.singleton_append, String.ofList_append, String.utf8ByteSize_append,
    ← String.singleton_eq_ofList, String.utf8ByteSize_singleton]

theorem length_le_utf8ByteSize (text : List Char) :
    text.length ≤ (String.ofList text).utf8ByteSize := by
  induction text with
  | nil => exact Nat.zero_le _
  | cons c rest ih =>
    have filled := c.utf8Size_pos
    rw [utf8ByteSize_cons, List.length_cons]
    omega

theorem utf8ByteSize_of_ascii (ascii : ∀ c ∈ text, c.utf8Size = 1) :
    (String.ofList text).utf8ByteSize = text.length := by
  induction text with
  | nil => rfl
  | cons c rest ih =>
    obtain ⟨one, others⟩ := List.forall_mem_cons.mp ascii
    rw [utf8ByteSize_cons, one, ih others, List.length_cons, Nat.add_comm]

theorem utf8Size_of_isDigit {c : Char} (decimal : c.isDigit = true) : c.utf8Size = 1 := by
  simp only [Char.isDigit, Bool.and_eq_true, decide_eq_true_eq] at decimal
  exact Char.utf8Size_eq_one_iff.mpr (UInt32.le_trans decimal.2 (by decide))

theorem utf8ByteSize_ofInt (n : Int) :
    (String.ofList (ofInt n)).utf8ByteSize = (ofInt n).length := by
  have digits (m : Nat) : ∀ c ∈ Nat.toDigits 10 m, c.utf8Size = 1 := fun c member =>
    utf8Size_of_isDigit (Nat.isDigit_of_mem_toDigits (by decide) (by decide) member)
  apply utf8ByteSize_of_ascii
  cases n with
  | ofNat m => exact digits m
  | negSucc m => exact List.forall_mem_cons.mpr ⟨rfl, digits (m + 1)⟩

end Lengths

end Text

section Words

variable {ε : Type} {n : Int} {reason : ε}

/-- What a reader gives for an integer: its word, or the reason why it has none. -/
def Value.ofInteger (n : Int) (reason : ε) : Except ε Value :=
  match Text.word? n with
  | some word => .ok (.int word)
  | none => .error reason

theorem ofInteger_toInt (word : Int64) (reason : ε) :
    Value.ofInteger word.toInt reason = .ok (.int word) := by
  rw [Value.ofInteger, Text.word?_eq_some_iff.mpr rfl]

theorem exists_ofInteger_iff :
    (∃ word, Value.ofInteger n reason = .ok (.int word) ∧ word.toInt = n) ↔ Text.FitsWord n := by
  constructor
  · rintro ⟨word, -, rfl⟩
    exact Text.fitsWord_toInt word
  · intro inside
    obtain ⟨word, rfl⟩ := inside.exists_toInt
    exact ⟨word, ofInteger_toInt word reason, rfl⟩

theorem ofInteger_eq_error_iff :
    Value.ofInteger n reason = .error reason ↔ ¬Text.FitsWord n := by
  rw [← Text.word?_eq_none_iff, Value.ofInteger]
  cases Text.word? n <;> simp

theorem ofInteger_cases (n : Int) (reason : ε) :
    (∃ word, Value.ofInteger n reason = .ok (.int word)) ∨
      Value.ofInteger n reason = .error reason := by
  unfold Value.ofInteger
  cases Text.word? n with
  | none => exact Or.inr rfl
  | some word => exact Or.inl ⟨word, rfl⟩

end Words

section Operands

variable {store : Store} {token : String} {n : Int}

theorem resolve_of_unreferenced (store : Store) (operand : token.toList.head? ≠ some '&') :
    resolve store token =
      match Text.integer? token.toList with
      | some n => Value.ofInteger n (.unusable (.literalRange token))
      | none =>
        if isQuoted token.toList then (resolveText store token.toList).map .str
        else .error (.malformed (.value token)) := by
  unfold resolve
  split
  next name reference =>
    rw [reference] at operand
    exact absurd rfl operand
  · rfl

theorem Text.Integer.head?_ne {text : List Char} (integer : Text.Integer text n) :
    text.head? ≠ some '&' := by
  intro reference
  cases integer with
  | plain natural => exact natural.no_sign rfl (List.mem_of_mem_head? reference)
  | minus => cases reference

theorem resolve_of_integer (store : Store) (integer : Text.Integer token.toList n) :
    resolve store token = Value.ofInteger n (.unusable (.literalRange token)) := by
  rw [resolve_of_unreferenced store integer.head?_ne, Text.integer?_eq_some_iff.mpr integer]

theorem resolveText_ne_range (store : Store) (text : List Char) (token : String) :
    resolveText store text ≠ .error (.unusable (.literalRange token)) := by
  intro failed
  unfold resolveText at failed
  split at failed
  · cases failed
  next shown _ =>
    split at failed
    next decoded =>
      cases failed
      exact Escape.decode_ne_range shown token decoded
    · cases failed

/-- Except for the values of variables, only what is written as an integer is taken for one. -/
theorem exists_integer_iff (store : Store) :
    (∃ n, Text.Integer token.toList n) ↔
      token.toList.head? ≠ some '&' ∧
        ((∃ word, resolve store token = .ok (.int word)) ∨
          resolve store token = .error (.unusable (.literalRange token))) := by
  constructor
  · rintro ⟨n, integer⟩
    rw [resolve_of_integer store integer]
    exact ⟨integer.head?_ne, ofInteger_cases n _⟩
  · rintro ⟨operand, taken⟩
    rw [resolve_of_unreferenced store operand] at taken
    cases read : Text.integer? token.toList with
    | some n => exact ⟨n, Text.integer?_eq_some_iff.mp read⟩
    | none =>
      rw [read] at taken
      dsimp only at taken
      split at taken
      · rcases taken with ⟨word, text⟩ | failed
        · obtain ⟨value, -, impossible⟩ := Result.map_eq_ok.mp text
          cases impossible
        · exact absurd (Result.map_eq_error.mp failed) (resolveText_ne_range store _ token)
      · rcases taken with ⟨word, impossible⟩ | impossible <;> cases impossible

end Operands

section Casts

variable {text : String} {n : Int}

theorem cast_text_of_padded (padded : Text.Padded text.toList n) :
    (Value.str text).cast .integer = Value.ofInteger n .overflow := by
  change (Value.integerOfText text).map Value.int = _
  rw [Value.integerOfText, Value.ofInteger, Text.signed?_trim_eq_some_iff.mpr padded]
  dsimp only
  cases Text.word? n <;> rfl

theorem cast_text_of_unpadded (other : ∀ n, ¬Text.Padded text.toList n) :
    (Value.str text).cast .integer = .error (.notInteger text) := by
  have unread : Text.signed? (Text.trim text.toList) = none :=
    Option.eq_none_iff_forall_ne_some.mpr fun n => mt Text.signed?_trim_eq_some_iff.mp (other n)
  change (Value.integerOfText text).map Value.int = _
  rw [Value.integerOfText, unread]
  rfl

theorem exists_padded_iff :
    (∃ n, Text.Padded text.toList n) ↔
      (∃ value, (Value.str text).cast .integer = .ok value) ∨
        (Value.str text).cast .integer = .error .overflow := by
  constructor
  · rintro ⟨n, padded⟩
    rw [cast_text_of_padded padded]
    exact (ofInteger_cases n _).imp_left fun ⟨word, read⟩ => ⟨.int word, read⟩
  · intro taken
    by_contra other
    rw [cast_text_of_unpadded (not_exists.mp other)] at taken
    rcases taken with ⟨value, impossible⟩ | impossible <;> cases impossible

theorem display_integer (word : Int64) :
    Text.Integer (Value.int word).display.toList word.toInt := by
  rw [Value.display, String.toList_ofList]
  exact Text.integer?_eq_some_iff.mp (Text.integer?_ofInt word.toInt)

theorem byteSize_of_padded {word : Int64} (padded : Text.Padded text.toList word.toInt) :
    (Value.int word).byteSize ≤ (Value.str text).byteSize :=
  calc
    (Value.int word).byteSize = (Text.ofInt word.toInt).length := Text.utf8ByteSize_ofInt _
    _ ≤ text.toList.length := padded.length_le
    _ ≤ (String.ofList text.toList).utf8ByteSize := Text.length_le_utf8ByteSize _
    _ = (Value.str text).byteSize := by rw [String.ofList_toList]; rfl

end Casts

/-- Integers are written as the readers of operands and of texts expect them. A text is cast to an
integer, or is out of range as one, exactly when it is a signed integer within white space, and a
token that refers to no variable exactly when it is an integer as scripts write them. Either reader
gives the exact value of those in range. -/
theorem decimal_readers_exact :
    (∀ (word : Int64) (store : Store),
      resolve store (Value.int word).display = .ok (.int word) ∧
        (Value.str (Value.int word).display).cast .integer = .ok (.int word)) ∧
      (∀ text : String,
        ((∃ value, (Value.str text).cast .integer = .ok value) ∨
            (Value.str text).cast .integer = .error .overflow ↔
          ∃ n, Text.Padded text.toList n) ∧
          ∀ n, Text.Padded text.toList n →
            ((∃ word, (Value.str text).cast .integer = .ok (.int word) ∧ word.toInt = n) ↔
              Text.FitsWord n) ∧
              ((Value.str text).cast .integer = .error .overflow ↔ ¬Text.FitsWord n)) ∧
        Unusable.overflow.message = "integer overflow" ∧
          ∀ (token : String) (store : Store),
            (token.toList.head? ≠ some '&' ∧
                ((∃ word, resolve store token = .ok (.int word)) ∨
                  resolve store token = .error (.unusable (.literalRange token))) ↔
              ∃ n, Text.Integer token.toList n) ∧
              (∀ n, Text.Integer token.toList n →
                ((∃ word, resolve store token = .ok (.int word) ∧ word.toInt = n) ↔
                  Text.FitsWord n) ∧
                  (resolve store token = .error (.unusable (.literalRange token)) ↔
                    ¬Text.FitsWord n)) ∧
                (Failure.unusable (.literalRange token)).isFatal = false := by
  refine ⟨fun word store => ?_, fun text => ⟨exists_padded_iff.symm, fun n padded => ?_⟩, rfl,
    fun token store => ⟨(exists_integer_iff store).symm, fun n integer => ?_, rfl⟩⟩
  · have written := display_integer word
    rw [resolve_of_integer store written, cast_text_of_padded written.padded]
    exact ⟨ofInteger_toInt word _, ofInteger_toInt word _⟩
  · rw [cast_text_of_padded padded]
    exact ⟨exists_ofInteger_iff, ofInteger_eq_error_iff⟩
  · rw [resolve_of_integer store integer]
    exact ⟨exists_ofInteger_iff, ofInteger_eq_error_iff⟩

end Script8255
