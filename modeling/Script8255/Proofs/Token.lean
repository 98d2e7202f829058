import Script8255.Proofs.Text.Blank
import Script8255.Token

/-! Lines in which single spaces stand between the tokens: they have the tokens that are shown. -/

namespace Script8255

section Lists

variable {α β : Type}

theorem not_of_mem_splitOnP {p : α → Bool} {whole part : List α}
    (member : part ∈ whole.splitOnP p) : ∀ a ∈ part, p a = false := by
  induction whole generalizing part with
  | nil =>
    rw [List.splitOnP_nil, List.mem_singleton] at member
    subst member
    exact nofun
  | cons a rest ih =>
    rw [List.splitOnP_cons_eq_if_modifyHead] at member
    cases parts : rest.splitOnP p with
    | nil => exact absurd parts (List.splitOnP_ne_nil p rest)
    | cons first later =>
      rw [parts] at ih member
      cases ended : p a with
      | true =>
        simp only [ended, if_true, List.mem_cons] at member
        rcases member with rfl | old
        · exact nofun
        · exact ih (List.mem_cons.mpr old)
      | false =>
        simp only [ended, Bool.false_eq_true, if_false, List.modifyHead_cons,
          List.mem_cons] at member
        rcases member with rfl | old
        · intro b here
          rcases List.mem_cons.mp here with rfl | inner
          · exact ended
          · exact ih List.mem_cons_self b inner
        · exact ih (List.mem_cons_of_mem _ old)

theorem map_intercalate (f : α → β) (separator : List α) (parts : List (List α)) :
    (separator.intercalate parts).map f =
      (separator.map f).intercalate (parts.map (List.map f)) := by
  induction parts with
  | nil => rfl
  | cons first later ih =>
    cases later with
    | nil => simp
    | cons second rest =>
      simp only [List.intercalate_cons_cons, List.map_append, List.map_cons] at ih ⊢
      rw [ih]

end Lists

end Script8255

namespace Script8255.Token

theorem closes_cons (c : Char) (rest : List Char) :
    closes (c :: rest) =
      if c = '"' then true else if c = '\\' then closes rest.tail else closes rest := by
  by_cases quote : c = '"'
  · subst quote
    rfl
  · by_cases backslash : c = '\\'
    · subst backslash
      cases rest <;> rfl
    · simp [closes, quote, backslash]

/-- Whether a character is quoted, and the place after it. Only outside does it matter whether a
quote that is opened here has a closing one. -/
def turn : Place → Char → Bool → Bool × Place
  | .outside, c, closed => if c == '"' && closed then (true, .inside) else (false, .outside)
  | .inside, c, _ => (true, if c = '"' then .outside else if c = '\\' then .escaped else .inside)
  | .escaped, _, _ => (true, .inside)

theorem quoting_cons (place : Place) (c : Char) (rest : List Char) :
    quoting place (c :: rest) =
      (c, (turn place c (closes rest)).1) :: quoting (turn place c (closes rest)).2 rest := by
  cases place with
  | outside => by_cases opened : (c == '"' && closes rest) = true <;> simp [quoting, turn, opened]
  | inside => rfl
  | escaped => rfl

theorem turn_of_plain {place : Place} {c : Char} {closed : Bool}
    (plain : (turn place c closed).1 = false) :
    place = .outside ∧ turn place c closed = (false, .outside) := by
  cases place with
  | outside => by_cases opened : (c == '"' && closed) = true <;> simp_all [turn]
  | inside => cases plain
  | escaped => cases plain

section Plain

variable {front : List Char}

theorem closes_append (plain : ∀ c ∈ front, c ≠ '"' ∧ c ≠ '\\') (rest : List Char) :
    closes (front ++ rest) = closes rest := by
  induction front with
  | nil => rfl
  | cons c front ih =>
    obtain ⟨quote, backslash⟩ := plain c List.mem_cons_self
    rw [List.cons_append, closes_cons, if_neg quote, if_neg backslash]
    exact ih fun d member => plain d (List.mem_cons_of_mem c member)

theorem quoting_inside_append (plain : ∀ c ∈ front, c ≠ '"' ∧ c ≠ '\\') (rest : List Char) :
    quoting .inside (front ++ rest) = front.map (·, true) ++ quoting .inside rest := by
  induction front with
  | nil => rfl
  | cons c front ih =>
    obtain ⟨quote, backslash⟩ := plain c List.mem_cons_self
    have later := ih fun d member => plain d (List.mem_cons_of_mem c member)
    simp only [List.cons_append, quoting, if_neg quote, if_neg backslash, later, List.map_cons]

theorem quoting_outside_append (plain : '"' ∉ front) (rest : List Char) :
    quoting .outside (front ++ rest) = front.map (·, false) ++ quoting .outside rest := by
  induction front with
  | nil => rfl
  | cons c front ih =>
    have other : (c == '"') = false := by
      simpa using fun same : c = '"' => plain (same ▸ List.mem_cons_self)
    have later := ih fun member => plain (List.mem_cons_of_mem c member)
    simp [quoting, other, later]

end Plain

section Pieces

variable {marked piece : List (Char × Bool)} {c : Char × Bool}

def pieces (marked : List (Char × Bool)) : List (List (Char × Bool)) :=
  (marked.splitOnP ends).filter fun piece => !piece.isEmpty

theorem split_eq_pieces (line : List Char) :
    split line = (pieces (quoting .outside line)).map (List.map Prod.fst) := rfl

theorem pieces_append_cons (front back : List (Char × Bool)) (ended : ends c = true) :
    pieces (front ++ c :: back) = pieces front ++ pieces back := by
  unfold pieces
  rw [List.splitOnP_append_cons front back ended, List.filter_append]

theorem pieces_cons (back : List (Char × Bool)) (ended : ends c = true) :
    pieces (c :: back) = pieces back := pieces_append_cons [] back ended

theorem pieces_of_whole (filled : piece ≠ []) (whole : ∀ c ∈ piece, ends c = false) :
    pieces piece = [piece] := by
  unfold pieces
  rw [List.splitOnP_eq_singleton whole]
  simp [filled]

def IsPiece (piece : List (Char × Bool)) : Prop := piece ≠ [] ∧ ∀ c ∈ piece, ends c = false

theorem isPiece_of_mem_pieces (member : piece ∈ pieces marked) : IsPiece piece := by
  obtain ⟨part, filled⟩ := List.mem_filter.mp member
  exact ⟨by simpa using filled, not_of_mem_splitOnP part⟩

def gap : List (Char × Bool) := [(' ', false)]

theorem pieces_intercalate {parts : List (List (Char × Bool))}
    (each : ∀ piece ∈ parts, IsPiece piece) : pieces (gap.intercalate parts) = parts := by
  induction parts with
  | nil => rfl
  | cons first later ih =>
    obtain ⟨filled, whole⟩ := each first List.mem_cons_self
    have single := pieces_of_whole filled whole
    cases later with
    | nil => simpa using single
    | cons second rest =>
      have tail := ih fun piece member => each piece (List.mem_cons_of_mem _ member)
      rw [List.intercalate_cons_cons, List.append_assoc]
      change pieces (first ++ (' ', false) :: gap.intercalate (second :: rest)) = _
      rw [pieces_append_cons _ _ rfl, single, tail]
      rfl

end Pieces

section Respacing

variable {marked : List (Char × Bool)}

/-- A line with one space for each run of characters that end a token, and none for the last run.
There is a run to be shown when `pending` is set. -/
def respace : Bool → List (Char × Bool) → List (Char × Bool)
  | _, [] => []
  | pending, c :: rest =>
    if ends c then respace true rest
    else if pending then (' ', false) :: c :: respace false rest
    else c :: respace false rest

theorem respace_ended {c : Char × Bool} (pending : Bool) (rest : List (Char × Bool))
    (ended : ends c = true) : respace pending (c :: rest) = respace true rest := by
  simp [respace, ended]

theorem respace_inner {c : Char × Bool} (rest : List (Char × Bool)) (inner : ends c = false) :
    respace false (c :: rest) = c :: respace false rest := by
  simp [respace, inner]

theorem respace_pending {c : Char × Bool} (rest : List (Char × Bool)) (inner : ends c = false) :
    respace true (c :: rest) = (' ', false) :: respace false (c :: rest) := by
  simp [respace, inner]

theorem intercalate_pieces_append (marked : List (Char × Bool)) :
    (∀ piece, IsPiece piece → gap.intercalate (pieces (piece ++ marked)) =
      piece ++ respace false marked) ∧
    ∀ piece, gap.intercalate (piece :: pieces marked) = piece ++ respace true marked := by
  -- A separator leads from the first part to the second, and any other character back.
  induction marked with
  | nil =>
    constructor
    · intro piece whole
      simp [pieces_of_whole whole.1 whole.2, respace]
    · intro piece
      simp [pieces, respace]
  | cons c rest ih =>
    cases ended : ends c with
    | true =>
      constructor
      · intro piece whole
        rw [pieces_append_cons piece rest ended, pieces_of_whole whole.1 whole.2,
          respace_ended false rest ended]
        exact ih.2 piece
      · intro piece
        rw [pieces_cons rest ended, respace_ended true rest ended]
        exact ih.2 piece
    | false =>
      have grown : ∀ piece, (∀ d ∈ piece, ends d = false) →
          gap.intercalate (pieces (piece ++ c :: rest)) = piece ++ respace false (c :: rest) := by
        intro piece whole
        have more : IsPiece (piece ++ [c]) := by
          refine ⟨by simp, ?_⟩
          intro d member
          rcases List.mem_append.mp member with early | last
          · exact whole d early
          · rw [List.mem_singleton.mp last]
            exact ended
        have shown := ih.1 (piece ++ [c]) more
        rw [respace_inner rest ended]
        simpa using shown
      constructor
      · intro piece whole
        exact grown piece whole.2
      · intro piece
        have later := grown [] nofun
        rw [List.nil_append] at later
        rw [respace_pending rest ended]
        cases parts : pieces (c :: rest) with
        | nil =>
          rw [parts, respace_inner rest ended] at later
          cases later
        | cons second others =>
          rw [parts] at later
          rw [List.intercalate_cons_cons, later, List.append_assoc]
          rfl

theorem intercalate_pieces (marked : List (Char × Bool)) :
    gap.intercalate (pieces marked) = respace false (marked.dropWhile ends) := by
  induction marked with
  | nil => rfl
  | cons c rest ih =>
    cases ended : ends c with
    | true =>
      rw [pieces_cons rest ended, List.dropWhile_cons_of_pos ended]
      exact ih
    | false =>
      have whole : IsPiece [c] := ⟨by simp, by simpa using ended⟩
      have shown := (intercalate_pieces_append rest).1 [c] whole
      rw [List.dropWhile_cons_of_neg (by simp [ended]), respace_inner rest ended]
      exact shown

theorem ne_of_isSeparator {c : Char} (separator : Text.isSeparator c = true) :
    c ≠ '"' ∧ c ≠ '\\' := by
  constructor
  · rintro rfl
    cases separator
  · rintro rfl
    cases separator

theorem closes_separator {c : Char} (rest : List Char) (separator : Text.isSeparator c = true) :
    closes (c :: rest) = closes rest := by
  obtain ⟨quote, backslash⟩ := ne_of_isSeparator separator
  rw [closes_cons, if_neg quote, if_neg backslash]

theorem ends_eq_true {c : Char × Bool} (ended : ends c = true) :
    Text.isSeparator c.1 = true ∧ c.2 = false := by
  simpa [ends] using ended

theorem closes_respace (pending : Bool) (marked : List (Char × Bool)) :
    closes ((respace pending marked).map Prod.fst) = closes (marked.map Prod.fst) ∧
      closes ((respace pending marked).map Prod.fst).tail =
        closes (if pending then marked.map Prod.fst else (marked.map Prod.fst).tail) := by
  induction marked generalizing pending with
  | nil => cases pending <;> simp [respace]
  | cons c rest ih =>
    cases ended : ends c with
    | true =>
      have separator := (ends_eq_true ended).1
      have skipped := closes_separator (rest.map Prod.fst) separator
      have later := ih true
      rw [respace_ended pending rest ended]
      cases pending <;> simp [later, skipped]
    | false =>
      have same := ih false
      have inner : closes ((respace false (c :: rest)).map Prod.fst) =
          closes ((c :: rest).map Prod.fst) := by
        simp only [respace_inner rest ended, List.map_cons, closes_cons, same.1]
        simp [same.2]
      cases pending with
      | false =>
        refine ⟨inner, ?_⟩
        rw [respace_inner rest ended]
        exact same.1
      | true =>
        rw [respace_pending rest ended]
        have space := closes_separator ((respace false (c :: rest)).map Prod.fst)
          (show Text.isSeparator ' ' = true from rfl)
        exact ⟨space.trans inner, inner⟩

theorem quoting_respace {place : Place} {marked : List (Char × Bool)} (pending : Bool)
    (scanned : quoting place (marked.map Prod.fst) = marked)
    (between : pending = true → place = .outside) :
    quoting place ((respace pending marked).map Prod.fst) = respace pending marked := by
  -- Separators are dropped only where the scan is outside, and it is still outside after them.
  induction marked generalizing place pending with
  | nil =>
    cases place <;> rfl
  | cons c rest ih =>
    rw [List.map_cons, quoting_cons] at scanned
    obtain ⟨mark, later⟩ := List.cons.inj scanned
    have marked : (turn place c.1 (closes (rest.map Prod.fst))).1 = c.2 := congrArg Prod.snd mark
    cases ended : ends c with
    | true =>
      have plain := (ends_eq_true ended).2
      rw [plain] at marked
      obtain ⟨rfl, moved⟩ := turn_of_plain marked
      rw [moved] at later
      rw [respace_ended pending rest ended]
      exact ih true later fun _ => rfl
    | false =>
      have inner : quoting place ((respace false (c :: rest)).map Prod.fst) =
          respace false (c :: rest) := by
        have tail := ih false later nofun
        rw [respace_inner rest ended, List.map_cons, quoting_cons, (closes_respace false rest).1,
          tail, marked]
      cases pending with
      | false => exact inner
      | true =>
        obtain rfl := between rfl
        rw [respace_pending rest ended, List.map_cons, quoting_cons]
        have space (closed : Bool) : turn .outside ' ' closed = (false, .outside) := rfl
        rw [space, inner]

end Respacing

section Shown

def shown (line : List Char) : List (Char × Bool) :=
  gap.intercalate (pieces (quoting .outside line))

theorem quoting_dropWhile {marked : List (Char × Bool)}
    (scanned : quoting .outside (marked.map Prod.fst) = marked) :
    quoting .outside ((marked.dropWhile ends).map Prod.fst) = marked.dropWhile ends := by
  induction marked with
  | nil => rfl
  | cons c rest ih =>
    cases ended : ends c with
    | false =>
      rw [List.dropWhile_cons_of_neg (by simp [ended])]
      exact scanned
    | true =>
      rw [List.map_cons, quoting_cons] at scanned
      obtain ⟨mark, later⟩ := List.cons.inj scanned
      have plain := (congrArg Prod.snd mark).trans (ends_eq_true ended).2
      rw [(turn_of_plain plain).2] at later
      rw [List.dropWhile_cons_of_pos ended]
      exact ih later

theorem quoting_shown (line : List Char) :
    quoting .outside ((shown line).map Prod.fst) = shown line := by
  have scanned : quoting .outside ((quoting .outside line).map Prod.fst) =
      quoting .outside line := by
    rw [quoting_map_fst]
  unfold shown
  rw [intercalate_pieces]
  exact quoting_respace false (quoting_dropWhile scanned) nofun

theorem split_shown (line : List Char) : split ((shown line).map Prod.fst) = split line := by
  have same : pieces (shown line) = pieces (quoting .outside line) :=
    pieces_intercalate fun _ member => isPiece_of_mem_pieces member
  rw [split_eq_pieces, split_eq_pieces, quoting_shown, same]

theorem mem_respace {c : Char × Bool} {pending : Bool} {marked : List (Char × Bool)}
    (member : c ∈ respace pending marked) : c = (' ', false) ∨ c ∈ marked := by
  induction marked generalizing pending with
  | nil => cases member
  | cons d rest ih =>
    cases ended : ends d with
    | true =>
      rw [respace_ended pending rest ended] at member
      exact (ih member).imp_right (List.mem_cons_of_mem d)
    | false =>
      have inner (here : c ∈ respace false (d :: rest)) : c = (' ', false) ∨ c ∈ d :: rest := by
        rw [respace_inner rest ended, List.mem_cons] at here
        rcases here with rfl | later
        · exact Or.inr List.mem_cons_self
        · exact (ih later).imp_right (List.mem_cons_of_mem d)
      cases pending with
      | false => exact inner member
      | true =>
        rw [respace_pending rest ended, List.mem_cons] at member
        exact member.elim Or.inl inner

theorem mem_shown {c : Char} {line : List Char} (member : c ∈ (shown line).map Prod.fst) :
    c = ' ' ∨ c ∈ line := by
  obtain ⟨entry, present, rfl⟩ := List.mem_map.mp member
  unfold shown at present
  rw [intercalate_pieces] at present
  rcases mem_respace present with rfl | kept
  · exact Or.inl rfl
  · have scanned : entry ∈ quoting .outside line := (List.dropWhile_sublist ends).subset kept
    have read := List.mem_map_of_mem (f := Prod.fst) scanned
    rw [quoting_map_fst] at read
    exact Or.inr read

theorem getLast?_respace {c : Char × Bool} (pending : Bool) {marked : List (Char × Bool)}
    (last : marked.getLast? = some c) (inner : ends c = false) :
    (respace pending marked).getLast? = some c := by
  induction marked generalizing pending with
  | nil => cases last
  | cons d rest ih =>
    cases rest with
    | nil =>
      obtain rfl : d = c := by simpa using last
      cases pending <;> simp [respace, inner]
    | cons e more =>
      rw [List.getLast?_cons_cons] at last
      have kept := fun pending => ih pending last
      have filled : respace false (e :: more) ≠ [] := by
        intro empty
        have missing := kept false
        rw [empty] at missing
        cases missing
      cases ended : ends d with
      | true =>
        rw [respace_ended pending _ ended]
        exact kept true
      | false =>
        have tail : (respace false (d :: e :: more)).getLast? = some c := by
          rw [respace_inner _ ended, List.getLast?_cons_of_ne_nil filled]
          exact kept false
        cases pending with
        | false => exact tail
        | true =>
          rw [respace_pending _ ended, List.getLast?_cons_of_ne_nil]
          · exact tail
          · simp [respace_inner _ ended]

theorem trimmed_shown {line : List Char} (trimmed : Text.Trimmed line) :
    Text.Trimmed ((shown line).map Prod.fst) := by
  have ends_of_filled {c : Char × Bool} (filled : Text.isBlank c.1 = false) : ends c = false := by
    cases ended : ends c with
    | false => rfl
    | true =>
      have blank := Text.isBlank_of_isSeparator (ends_eq_true ended).1
      rw [filled] at blank
      cases blank
  obtain ⟨c, first, filled⟩ := trimmed.first
  obtain ⟨d, last, full⟩ := trimmed.last
  cases line with
  | nil => cases first
  | cons a rest =>
    cases first
    have start : ends (c, (turn .outside c (closes rest)).1) = false := ends_of_filled filled
    have whole : shown (c :: rest) = respace false (quoting .outside (c :: rest)) := by
      unfold shown
      rw [intercalate_pieces, quoting_cons, List.dropWhile_cons_of_neg (by simp [start])]
    constructor
    · refine ⟨c, ?_, filled⟩
      rw [whole, quoting_cons, respace_inner _ start]
      rfl
    · refine ⟨d, ?_, full⟩
      have scanned := quoting_map_fst .outside (c :: rest)
      rw [← scanned, List.getLast?_map] at last
      obtain ⟨entry, here, rfl⟩ := Option.map_eq_some_iff.mp last
      rw [whole, List.getLast?_map, getLast?_respace false here (ends_of_filled full)]
      rfl

end Shown

end Script8255.Token

namespace Script8255

theorem toList_showTokens_tokenize (line : String) :
    (showTokens (tokenize line)).toList = (Token.shown line.toList).map Prod.fst := by
  have texts : (tokenize line).map String.toList = Token.split line.toList := by
    simp [tokenize, Function.comp_def]
  unfold showTokens Token.shown
  rw [String.toList_intercalate, texts, map_intercalate]
  rfl

/-- A shown instruction tokenizes back to the instruction. -/
theorem tokenize_showTokens (line : String) :
    tokenize (showTokens (tokenize line)) = tokenize line := by
  have same : Token.split (showTokens (tokenize line)).toList = Token.split line.toList := by
    rw [toList_showTokens_tokenize, Token.split_shown]
  exact congrArg (List.map String.ofList) same

end Script8255
