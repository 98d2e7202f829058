import Script8255.Proofs.Escape
import Script8255.Proofs.Token
import Script8255.Resolve

/-! Texts written as string tokens: how they are cut from a line and what they resolve to. -/

namespace Script8255

section Placeholders

variable {text : List Char}

theorem segments_of_no_dollar (plain : '$' ∉ text) :
    segments text = if text = [] then [] else [.text text] := by
  induction text with
  | nil => rw [segments, if_pos rfl]
  | cons c rest ih =>
    have other : (c == '$') = false := by
      simpa using fun same : c = '$' => plain (same ▸ List.mem_cons_self)
    have later : '$' ∉ rest := fun member => plain (List.mem_cons_of_mem c member)
    rw [segments, ih later, if_neg (List.cons_ne_nil c rest)]
    cases rest <;> simp [other]

theorem interpolate_of_no_dollar (store : Store) (plain : '$' ∉ text) :
    interpolate store text = .ok text := by
  unfold interpolate
  rw [segments_of_no_dollar plain]
  cases text with
  | nil => rfl
  | cons c rest => simp [expand, Except.map]

end Placeholders

section Quotes

variable {text : List Char}

theorem trimQuotes_quoted (body : List Char) :
    trimQuotes ('"' :: (body ++ ['"'])) = trimQuotes body := by
  have dropped : ('"' :: (body ++ ['"'])).dropWhile (· == '"') =
      (body ++ ['"']).dropWhile (· == '"') := rfl
  unfold trimQuotes
  rw [dropped, List.dropWhile_append]
  cases empty : (body.dropWhile (· == '"')).isEmpty with
  | true =>
    rw [List.isEmpty_iff.mp empty]
    rfl
  | false => simp

theorem trimQuotes_of_head {body : List Char} (head : body.head? ≠ some '"') :
    trimQuotes body = (body.reverse.dropWhile (· == '"')).reverse := by
  have kept : body.dropWhile (· == '"') = body := by
    cases body with
    | nil => rfl
    | cons c rest =>
      have other : (c == '"') = false := by simpa using head
      rw [List.dropWhile_cons_of_neg (by simp [other])]
  unfold trimQuotes
  rw [kept]

theorem dropQuotes_of_no_quote (plain : '"' ∉ text) :
    text.dropWhile (· == '"') = text := by
  cases text with
  | nil => rfl
  | cons c rest =>
    have other : c ≠ '"' := fun same => plain (same ▸ List.mem_cons_self)
    rw [List.dropWhile_cons_of_neg (by simpa using other)]

theorem trimQuotes_of_no_quote {body : List Char} (plain : '"' ∉ body) :
    trimQuotes body = body := by
  have reversed : '"' ∉ body.reverse := mt List.mem_reverse.mp plain
  unfold trimQuotes
  rw [dropQuotes_of_no_quote plain, dropQuotes_of_no_quote reversed, List.reverse_reverse]

theorem isQuoted_quoted (body : List Char) : isQuoted ('"' :: (body ++ ['"'])) = true := by
  have last : ('"' :: (body ++ ['"'])).getLast? = some '"' := by
    rw [List.getLast?_cons_of_ne_nil (by simp), List.getLast?_concat]
  simp [isQuoted, last]

theorem natural?_of_quote (quote : '"' ∈ text) : Text.natural? text = none := by
  have other : text.all Char.isDigit = false := by
    rw [List.all_eq_false]
    exact ⟨'"', quote, by decide⟩
  simp [Text.natural?, other]

theorem integer?_of_quote (quote : '"' ∈ text) : Text.integer? text = none := by
  unfold Text.integer?
  split
  next digits =>
    have inner : '"' ∈ digits := by simpa using quote
    rw [natural?_of_quote inner, Option.map_none]
  next => rw [natural?_of_quote quote, Option.map_none]

theorem resolve_of_quote (store : Store) (operand : text.head? ≠ some '&') (quote : '"' ∈ text) :
    resolve store (String.ofList text) =
      if isQuoted text then (resolveText store text).map .str
      else .error (.malformed (.value (String.ofList text))) := by
  unfold resolve
  rw [String.toList_ofList]
  split
  next name => exact absurd rfl operand
  next => rw [integer?_of_quote quote]

theorem isQuoted_iff : isQuoted text = true ↔ ∃ body, text = '"' :: (body ++ ['"']) := by
  constructor
  · intro quoted
    cases text with
    | nil => cases quoted
    | cons c rest =>
      simp only [isQuoted, Bool.and_eq_true, decide_eq_true_eq, List.length_cons, beq_iff_eq,
        List.head?_cons, Option.some.injEq] at quoted
      obtain ⟨⟨long, rfl⟩, last⟩ := quoted
      have filled : rest ≠ [] := List.ne_nil_of_length_pos (by omega)
      rw [List.getLast?_cons_of_ne_nil filled, List.getLast?_eq_some_iff] at last
      obtain ⟨body, rfl⟩ := last
      exact ⟨body, rfl⟩
  · rintro ⟨body, rfl⟩
    exact isQuoted_quoted body

theorem resolve_quoted (store : Store) (body : List Char) :
    resolve store (String.ofList ('"' :: (body ++ ['"']))) =
      (resolveText store ('"' :: (body ++ ['"']))).map .str := by
  rw [resolve_of_quote store (by simp) List.mem_cons_self, if_pos (isQuoted_quoted body)]

end Quotes

/-- A way to write characters inside quotes: it decodes, and neither ends the quoted run nor
stands for a variable. -/
structure Spelling where
  spell : Char → List Char
  decode_spell : ∀ c rest, Escape.decode (spell c ++ rest) = (Escape.decode rest).map (c :: ·)
  closes_spell : ∀ c rest, Token.closes (spell c ++ rest) = Token.closes rest
  quoting_spell : ∀ c rest, Token.quoting .inside (spell c ++ rest) =
    (spell c).map (·, true) ++ Token.quoting .inside rest
  no_dollar : ∀ c, '$' ∉ spell c
  no_opening : ∀ c, (spell c).head?.any (· != '"') = true

namespace Spelling

variable (spelling : Spelling) (text : List Char)

def encode : List Char := text.flatMap spelling.spell

def literal (text : String) : String :=
  String.ofList ('"' :: (spelling.encode text.toList ++ ['"']))

theorem encode_cons (c : Char) :
    spelling.encode (c :: text) = spelling.spell c ++ spelling.encode text := rfl

theorem decode_encode (rest : List Char) :
    Escape.decode (spelling.encode text ++ rest) = (Escape.decode rest).map (text ++ ·) := by
  induction text with
  | nil => cases decoded : Escape.decode rest <;> simp [encode, Except.map, decoded]
  | cons c text ih =>
    rw [encode_cons, List.append_assoc, decode_spell, ih]
    cases Escape.decode rest <;> rfl

theorem decode_encode_self : Escape.decode (spelling.encode text) = .ok text := by
  have decoded := spelling.decode_encode text []
  rw [List.append_nil, Escape.decode] at decoded
  rw [decoded]
  simp [Except.map]

theorem closes_encode (rest : List Char) :
    Token.closes (spelling.encode text ++ rest) = Token.closes rest := by
  induction text with
  | nil => rfl
  | cons c text ih => rw [encode_cons, List.append_assoc, closes_spell, ih]

theorem quoting_encode (rest : List Char) :
    Token.quoting .inside (spelling.encode text ++ rest) =
      (spelling.encode text).map (·, true) ++ Token.quoting .inside rest := by
  induction text with
  | nil => rfl
  | cons c text ih =>
    rw [encode_cons, List.append_assoc, quoting_spell, ih, List.map_append, List.append_assoc]

theorem quoting_literal (text : String) :
    Token.quoting .outside (spelling.literal text).toList =
      (spelling.literal text).toList.map (·, true) := by
  have closed : Token.closes (spelling.encode text.toList ++ ['"']) = true :=
    spelling.closes_encode text.toList ['"']
  have inside := spelling.quoting_encode text.toList ['"']
  unfold literal
  rw [String.toList_ofList, Token.quoting_cons]
  simp [Token.turn, closed, inside, Token.quoting]

theorem pieces_literal (text : String) :
    Token.pieces ((spelling.literal text).toList.map (·, true)) =
      [(spelling.literal text).toList.map (·, true)] := by
  have filled : (spelling.literal text).toList.map (·, true) ≠ [] := by simp [literal]
  have whole : ∀ c ∈ (spelling.literal text).toList.map (·, true), Token.ends c = false := by
    intro c member
    obtain ⟨inner, present, rfl⟩ := List.mem_map.mp member
    simp [Token.ends]
  exact Token.pieces_of_whole filled whole

theorem tokenize_literal (text : String) :
    tokenize (spelling.literal text) = [spelling.literal text] := by
  unfold tokenize
  rw [Token.split_eq_pieces, quoting_literal, pieces_literal]
  simp [Function.comp_def]

theorem tokenize_word_literal {word : List Char} (filled : word ≠ [])
    (plain : ∀ c ∈ word, c ≠ '"' ∧ Text.isSeparator c = false) (text : String) :
    tokenize (String.ofList word ++ " " ++ spelling.literal text) =
      [String.ofList word, spelling.literal text] := by
  have unquoted : '"' ∉ word ++ [' '] := by
    intro member
    rcases List.mem_append.mp member with early | space
    · exact (plain _ early).1 rfl
    · simp at space
  have marks : Token.quoting .outside (String.ofList word ++ " " ++ spelling.literal text).toList =
      word.map (·, false) ++ (' ', false) :: (spelling.literal text).toList.map (·, true) := by
    have letters : (String.ofList word ++ " " ++ spelling.literal text).toList =
        word ++ [' '] ++ (spelling.literal text).toList := by simp
    rw [letters, Token.quoting_outside_append unquoted, quoting_literal]
    simp
  have first : Token.pieces (word.map (·, false)) = [word.map (·, false)] := by
    apply Token.pieces_of_whole (by simpa using filled)
    intro c member
    obtain ⟨inner, present, rfl⟩ := List.mem_map.mp member
    simp [Token.ends, (plain inner present).2]
  unfold tokenize
  rw [Token.split_eq_pieces, marks, Token.pieces_append_cons _ _ rfl, first, pieces_literal]
  simp [Function.comp_def]

theorem no_dollar_encode : '$' ∉ spelling.encode text := by
  intro member
  obtain ⟨c, _, here⟩ := List.mem_flatMap.mp member
  exact spelling.no_dollar c here

theorem head?_encode : (spelling.encode text).head? ≠ some '"' := by
  cases text with
  | nil => exact nofun
  | cons c text =>
    have other := spelling.no_opening c
    rw [encode_cons, List.head?_append]
    cases first : (spelling.spell c).head? with
    | none => simp [first] at other
    | some d => simpa [first] using other

/-- What is left of a literal when all the quotes at its ends are removed. -/
def body : List Char := ((spelling.encode text).reverse.dropWhile (· == '"')).reverse

theorem body_sublist : (spelling.body text).Sublist (spelling.encode text) := by
  have dropped := (List.dropWhile_sublist (l := (spelling.encode text).reverse) (· == '"')).reverse
  rwa [List.reverse_reverse] at dropped

theorem no_dollar_body : '$' ∉ spelling.body text := by
  intro member
  exact spelling.no_dollar_encode text ((spelling.body_sublist text).subset member)

theorem trimQuotes_literal (text : String) :
    trimQuotes (spelling.literal text).toList = spelling.body text.toList := by
  unfold literal
  rw [String.toList_ofList, trimQuotes_quoted,
    trimQuotes_of_head (spelling.head?_encode text.toList)]
  rfl

theorem no_placeholder_literal (text : String) (name : List Char) :
    .placeholder name ∉ segments (trimQuotes (spelling.literal text).toList) := by
  rw [trimQuotes_literal, segments_of_no_dollar (spelling.no_dollar_body text.toList)]
  split <;> simp

theorem resolve_literal (store : Store) (text : String) :
    resolve store (spelling.literal text) =
      match Escape.decode (spelling.body text.toList) with
      | .error reason => .error (.unusable reason)
      | .ok decoded => .ok (.str (String.ofList decoded)) := by
  have trimmed := spelling.trimQuotes_literal text
  unfold literal at trimmed ⊢
  rw [String.toList_ofList] at trimmed
  rw [resolve_quoted, resolveText, trimmed,
    interpolate_of_no_dollar store (spelling.no_dollar_body text.toList)]
  dsimp only
  cases Escape.decode (spelling.body text.toList) <;> rfl

end Spelling

section Backslashes

/-- A backslash before each backslash and quote, and the code of the dollar sign. -/
def backslash : Char → List Char
  | '\\' => ['\\', '\\']
  | '"' => ['\\', '"']
  | '$' => ['\\', 'x', '2', '4']
  | c => [c]

theorem backslash_cases {motive : Char → List Char → Prop} (escape : motive '\\' ['\\', '\\'])
    (quote : motive '"' ['\\', '"']) (dollar : motive '$' ['\\', 'x', '2', '4'])
    (plain : ∀ c, c ≠ '\\' → c ≠ '"' → c ≠ '$' → motive c [c]) (c : Char) :
    motive c (backslash c) := by
  unfold backslash
  split
  case h_1 => exact escape
  case h_2 => exact quote
  case h_3 => exact dollar
  case h_4 noEscape noQuote noDollar => exact plain c noEscape noQuote noDollar

theorem decode_backslash (c : Char) (rest : List Char) :
    Escape.decode (backslash c ++ rest) = (Escape.decode rest).map (c :: ·) := by
  induction c using backslash_cases with
  | escape => simp [Escape.decode, Escape.read, Escape.letter?]
  | quote => simp [Escape.decode, Escape.read, Escape.letter?]
  | dollar =>
    have code : Escape.read 'x' ('2' :: '4' :: rest) = .ok (['$'], 2) := rfl
    simp [Escape.decode, code]
  | plain c noEscape =>
    rw [List.singleton_append, Escape.decode.eq_def]
    simp [noEscape]

theorem closes_backslash (c : Char) (rest : List Char) :
    Token.closes (backslash c ++ rest) = Token.closes rest := by
  induction c using backslash_cases with
  | escape => rfl
  | quote => rfl
  | dollar => rfl
  | plain c noEscape noQuote =>
    rw [List.singleton_append, Token.closes_cons, if_neg noQuote, if_neg noEscape]

theorem quoting_backslash (c : Char) (rest : List Char) :
    Token.quoting .inside (backslash c ++ rest) =
      (backslash c).map (·, true) ++ Token.quoting .inside rest := by
  induction c using backslash_cases with
  | escape => rfl
  | quote => rfl
  | dollar => rfl
  | plain c noEscape noQuote => simp [Token.quoting, noEscape, noQuote]

theorem no_dollar_backslash (c : Char) : '$' ∉ backslash c := by
  induction c using backslash_cases with
  | escape => decide
  | quote => decide
  | dollar => decide
  | plain c _ _ noDollar => simpa using Ne.symm noDollar

theorem no_opening_backslash (c : Char) : (backslash c).head?.any (· != '"') = true := by
  induction c using backslash_cases with
  | escape => rfl
  | quote => rfl
  | dollar => rfl
  | plain c _ noQuote => simpa using noQuote

def Spelling.backslashes : Spelling where
  spell := backslash
  decode_spell := decode_backslash
  closes_spell := closes_backslash
  quoting_spell := quoting_backslash
  no_dollar := no_dollar_backslash
  no_opening := no_opening_backslash

theorem dropWhile_reverse_backslash {c : Char} (other : c ≠ '"') (rest : List Char) :
    ((backslash c).reverse ++ rest).dropWhile (· == '"') = (backslash c).reverse ++ rest := by
  induction c using backslash_cases with
  | escape => rfl
  | quote => exact absurd rfl other
  | dollar => rfl
  | plain c => simp [other]

namespace Spelling

theorem body_of_other (text : List Char) {c : Char} (other : c ≠ '"') :
    backslashes.body (text ++ [c]) = backslashes.encode (text ++ [c]) := by
  have spelled : backslashes.encode (text ++ [c]) = backslashes.encode text ++ backslash c := by
    simp [encode, backslashes]
  unfold body
  rw [spelled, List.reverse_append, dropWhile_reverse_backslash other]
  simp

/-- The quote of the last escape goes with the quotes around the literal. -/
theorem body_of_quote (text : List Char) :
    backslashes.body (text ++ ['"']) = backslashes.encode text ++ ['\\'] := by
  have spelled : backslashes.encode (text ++ ['"']) = backslashes.encode text ++ ['\\', '"'] := by
    simp [encode, backslashes, backslash]
  unfold body
  rw [spelled]
  simp

theorem decode_body (text : List Char) :
    Escape.decode (backslashes.body text) =
      if text.getLast? = some '"' then .error .finalBackslash else .ok text := by
  have whole := backslashes.decode_encode_self text
  -- Only the last character decides what the trimming takes.
  rcases List.eq_nil_or_concat text with rfl | ⟨front, last, rfl⟩
  · exact whole
  · rw [List.concat_eq_append] at whole ⊢
    rw [List.getLast?_concat]
    by_cases quote : last = '"'
    · subst quote
      rw [body_of_quote, decode_encode]
      simp [Escape.decode, Except.map]
    · rw [body_of_other front quote, whole]
      simp [quote]

/-- A text in the spelling with backslashes is one token. It resolves to the text unless that ends
with a quote, of which only the backslash is left. -/
theorem backslashes_read_back (text : String) (store : Store) :
    tokenize (backslashes.literal text) = [backslashes.literal text] ∧
      resolve store (backslashes.literal text) =
        if text.toList.getLast? = some '"' then .error (.unusable .finalBackslash)
        else .ok (.str text) := by
  refine ⟨backslashes.tokenize_literal text, ?_⟩
  rw [resolve_literal, decode_body]
  by_cases quote : text.toList.getLast? = some '"'
  · simp [quote]
  · simp [quote]

/-- The text that is only a quote does not read back. -/
theorem lone_quote_lost :
    backslashes.literal "\"" = "\"\\\"\"" ∧
      resolve (.empty 0) "\"\\\"\"" = .error (.unusable .finalBackslash) ∧
      resolve (.empty 0) (backslashes.literal "\"") ≠ .ok (.str "\"") := by
  have spelled : backslashes.literal "\"" = "\"\\\"\"" := rfl
  have lost : resolve (.empty 0) (backslashes.literal "\"") =
      .error (.unusable .finalBackslash) := by
    rw [resolve_literal, decode_body]
    rfl
  refine ⟨spelled, spelled ▸ lost, ?_⟩
  rw [lost]
  exact nofun

end Spelling

end Backslashes

section Codes

def coded : Char → List Char
  | '\\' => ['\\', 'x', '5', 'c']
  | '"' => ['\\', 'x', '2', '2']
  | '$' => ['\\', 'x', '2', '4']
  | c => [c]

theorem coded_cases {motive : Char → List Char → Prop}
    (code : ∀ c digits, digits.length = 2 → digits.all Escape.isHex = true →
      Escape.code 16 digits = c.toNat → motive c ('\\' :: 'x' :: digits))
    (plain : ∀ c, c ≠ '\\' → c ≠ '"' → c ≠ '$' → motive c [c]) (c : Char) :
    motive c (coded c) := by
  unfold coded
  split
  case h_1 => exact code _ ['5', 'c'] rfl rfl rfl
  case h_2 => exact code _ ['2', '2'] rfl rfl rfl
  case h_3 => exact code _ ['2', '4'] rfl rfl rfl
  case h_4 noEscape noQuote noDollar => exact plain c noEscape noQuote noDollar

theorem plain_of_isHex {digits : List Char} (hexadecimal : digits.all Escape.isHex = true) :
    ∀ d ∈ 'x' :: digits, d ≠ '"' ∧ d ≠ '\\' := by
  intro d member
  rcases List.mem_cons.mp member with rfl | digit
  · decide
  · have hexadecimal := List.all_eq_true.mp hexadecimal d digit
    exact ⟨Escape.ne_of_isHex hexadecimal rfl, Escape.ne_of_isHex hexadecimal rfl⟩

theorem decode_coded (c : Char) (rest : List Char) :
    Escape.decode (coded c ++ rest) = (Escape.decode rest).map (c :: ·) := by
  induction c using coded_cases with
  | code c digits two hexadecimal means => exact Escape.decode_code two hexadecimal means rest
  | plain c noEscape => exact Escape.decode_plain noEscape rest

theorem closes_coded (c : Char) (rest : List Char) :
    Token.closes (coded c ++ rest) = Token.closes rest := by
  induction c using coded_cases with
  | code c digits two hexadecimal =>
    have plain := plain_of_isHex hexadecimal
    exact Token.closes_append (fun d member => plain d (List.mem_cons_of_mem 'x' member)) rest
  | plain c noEscape noQuote =>
    rw [List.singleton_append, Token.closes_cons, if_neg noQuote, if_neg noEscape]

theorem quoting_coded (c : Char) (rest : List Char) :
    Token.quoting .inside (coded c ++ rest) =
      (coded c).map (·, true) ++ Token.quoting .inside rest := by
  induction c using coded_cases with
  | code c digits two hexadecimal =>
    have plain := plain_of_isHex hexadecimal
    have later := Token.quoting_inside_append
      (fun d member => plain d (List.mem_cons_of_mem 'x' member)) rest
    simp [Token.quoting, later]
  | plain c noEscape noQuote => simp [Token.quoting, noEscape, noQuote]

theorem not_mem_coded {d : Char} (special : d = '"' ∨ d = '$') (c : Char) : d ∉ coded c := by
  induction c using coded_cases with
  | code c digits two hexadecimal =>
    intro member
    have digit : d ∈ digits := by
      rcases special with rfl | rfl <;> simpa using member
    have hexadecimal := List.all_eq_true.mp hexadecimal d digit
    rcases special with rfl | rfl <;> cases hexadecimal
  | plain c noEscape noQuote noDollar =>
    rcases special with rfl | rfl
    · simpa using Ne.symm noQuote
    · simpa using Ne.symm noDollar

theorem coded_ne_nil (c : Char) : coded c ≠ [] := by
  induction c using coded_cases with
  | code => exact List.cons_ne_nil _ _
  | plain => exact List.cons_ne_nil _ _

theorem no_opening_coded (c : Char) : (coded c).head?.any (· != '"') = true := by
  have quote := not_mem_coded (Or.inl rfl : '"' = '"' ∨ '"' = '$') c
  cases spelled : coded c with
  | nil => exact absurd spelled (coded_ne_nil c)
  | cons d rest =>
    rw [spelled] at quote
    simpa using fun same : d = '"' => quote (same ▸ List.mem_cons_self)

def Spelling.codes : Spelling where
  spell := coded
  decode_spell := decode_coded
  closes_spell := closes_coded
  quoting_spell := quoting_coded
  no_dollar := not_mem_coded (Or.inr rfl)
  no_opening := no_opening_coded

namespace Spelling

theorem body_codes (text : List Char) : codes.body text = codes.encode text := by
  have plain : '"' ∉ (codes.encode text).reverse := by
    intro member
    obtain ⟨c, _, here⟩ := List.mem_flatMap.mp (List.mem_reverse.mp member)
    exact not_mem_coded (Or.inl rfl) c here
  unfold body
  rw [dropQuotes_of_no_quote plain, List.reverse_reverse]

theorem resolve_codes (store : Store) (text : String) :
    resolve store (codes.literal text) = .ok (.str text) := by
  rw [resolve_literal, body_codes, decode_encode_self]
  simp

end Spelling

end Codes

end Script8255
