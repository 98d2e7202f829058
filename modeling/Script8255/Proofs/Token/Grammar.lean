import Script8255.Proofs.Token.Layout
import Script8255.Proofs.Token.Run

/-! The grammar of a line, whose rules choose in order and never give back what they took. It
matches every line, and the tokens it finds are those of the scan. -/

namespace Script8255.Token

namespace Grammar

structure Match where
  tokens : List (List Char)
  rest : List Char

/-- A rule takes the start of a text, or it does not match. -/
abbrev Rule := List Char → Option Match

def one (p : Char → Bool) : Rule
  | c :: rest => if p c then some ⟨[], rest⟩ else none
  | [] => none

def any : Rule := one fun _ => true

def finish : Rule
  | [] => some ⟨[], []⟩
  | _ :: _ => none

def andThen (first second : Rule) : Rule := fun text =>
  (first text).bind fun before =>
    (second before.rest).map fun after => ⟨before.tokens ++ after.tokens, after.rest⟩

def orElse (first second : Rule) : Rule := fun text => (first text).or (second text)

def except (rule : Rule) : Rule := fun text =>
  if (rule text).isSome then none else some ⟨[], text⟩

def optional (rule : Rule) : Rule := orElse rule fun text => some ⟨[], text⟩

/-- What the rule matches, again and again for as long as it takes anything. -/
def many (rule : Rule) (text : List Char) : Match :=
  match rule text with
  | none => ⟨[], text⟩
  | some found =>
    if found.rest.length < text.length then
      ⟨found.tokens ++ (many rule found.rest).tokens, (many rule found.rest).rest⟩
    else found
termination_by text.length

def repeated (rule : Rule) : Rule := fun text => some (many rule text)

def repeated1 (rule : Rule) : Rule := andThen rule (repeated rule)

def capture (rule : Rule) : Rule := fun text =>
  (rule text).map fun found => ⟨[text.take (text.length - found.rest.length)], found.rest⟩

def sep : Rule := one separators.contains

def inner : Rule :=
  orElse (andThen (one (· == '\\')) any) (andThen (except (one (· == '"'))) any)

def quoted : Rule := andThen (one (· == '"')) (andThen (repeated inner) (one (· == '"')))

def plain : Rule := andThen (except sep) any

def token : Rule := capture (repeated1 (orElse quoted plain))

def line : Rule :=
  andThen (repeated sep) <|
  andThen (optional (andThen token (repeated (andThen (repeated1 sep) token)))) <|
  andThen (repeated sep) finish

section Rules

variable {rule first second : Rule} {text rest : List Char} {found : List (List Char)}

theorem andThen_of_some (before : first text = some ⟨found, rest⟩) :
    andThen first second text =
      (second rest).map fun after => ⟨found ++ after.tokens, after.rest⟩ := by
  rw [andThen, before]
  rfl

theorem andThen_of_none (failed : first text = none) : andThen first second text = none := by
  rw [andThen, failed]
  rfl

theorem many_of_none (failed : rule text = none) : many rule text = ⟨[], text⟩ := by
  rw [many, failed]

theorem many_of_some (taken : rule text = some ⟨found, rest⟩)
    (shorter : rest.length < text.length) :
    many rule text = ⟨found ++ (many rule rest).tokens, (many rule rest).rest⟩ := by
  rw [many, taken]
  exact if_pos shorter

theorem many_of_skip (taken : rule text = some ⟨[], rest⟩) (shorter : rest.length < text.length) :
    many rule text = many rule rest :=
  many_of_some taken shorter

end Rules

section Quotes

variable {c : Char} {rest : List Char}

theorem inner_quote (rest : List Char) : inner ('"' :: rest) = none := rfl

theorem inner_escaped (c : Char) (rest : List Char) :
    inner ('\\' :: c :: rest) = some ⟨[], rest⟩ := rfl

theorem inner_plain (quote : c ≠ '"') (backslash : c ≠ '\\') :
    inner (c :: rest) = some ⟨[], rest⟩ := by
  simp [inner, orElse, andThen, except, any, one, quote, backslash]

theorem many_inner_content {content : List Char} (inside : Content content) (rest : List Char) :
    many inner (content ++ '"' :: rest) = ⟨[], '"' :: rest⟩ := by
  induction inside with
  | nil => exact many_of_none (inner_quote rest)
  | escaped _ ih => exact (many_of_skip (inner_escaped _ _) (by simp +arith)).trans ih
  | plain quote backslash _ ih =>
    exact (many_of_skip (inner_plain quote backslash) (by simp)).trans ih

theorem many_inner_unclosed {text : List Char} (unclosed : closes text = false) :
    many inner text = ⟨[], []⟩ := by
  induction text using closes.induct with
  | case1 => exact many_of_none rfl
  | case2 rest => cases unclosed
  | case3 c rest ih =>
    rw [closes] at unclosed
    exact (many_of_skip (inner_escaped c rest) (by simp +arith)).trans (ih unclosed)
  | case4 c rest quote escape ih =>
    rw [closes_cons, if_neg quote] at unclosed
    by_cases backslash : c = '\\'
    · cases rest with
      | nil =>
        subst backslash
        have taken : inner ['\\'] = some ⟨[], []⟩ := rfl
        exact (many_of_skip taken (by simp)).trans (many_of_none rfl)
      | cons d more => exact absurd rfl (escape d more backslash)
    · rw [if_neg backslash] at unclosed
      exact (many_of_skip (inner_plain quote backslash) (by simp)).trans (ih unclosed)

theorem quoted_run {content : List Char} (inside : Content content) (rest : List Char) :
    quoted ('"' :: (content ++ '"' :: rest)) = some ⟨[], rest⟩ := by
  have opened : one (· == '"') ('"' :: (content ++ '"' :: rest)) =
      some ⟨[], content ++ '"' :: rest⟩ := rfl
  have within : repeated inner (content ++ '"' :: rest) = some ⟨[], '"' :: rest⟩ :=
    congrArg some (many_inner_content inside rest)
  rw [quoted, andThen_of_some opened, andThen_of_some within]
  rfl

theorem quoted_unclosed (unclosed : ¬Closable rest) : quoted ('"' :: rest) = none := by
  have never := (closes_eq_false_iff rest).mpr unclosed
  have opened : one (· == '"') ('"' :: rest) = some ⟨[], rest⟩ := rfl
  have within : repeated inner rest = some ⟨[], []⟩ := congrArg some (many_inner_unclosed never)
  rw [quoted, andThen_of_some opened, andThen_of_some within]
  rfl

theorem quoted_other (quote : c ≠ '"') : quoted (c :: rest) = none := by
  refine andThen_of_none ?_
  simp [one, quote]

theorem plain_cons (c : Char) (rest : List Char) :
    plain (c :: rest) = if c ∈ separators then none else some ⟨[], rest⟩ := by
  by_cases ended : c ∈ separators <;> simp [plain, andThen, except, sep, any, one, ended]

end Quotes

section Stretches

/-- On a line that was read as stretches, the rule takes those that are accepted, one at a time. -/
structure Takes (rule : Rule) (accepted : Part → Bool) : Prop where
  nil : rule [] = none
  cons {part : Part} {later : List Part} : Parted (part :: later) →
    rule (written (part :: later)) =
      if accepted part then some ⟨[], written later⟩ else none

theorem takes_sep : Takes sep Part.isGap := by
  refine ⟨rfl, ?_⟩
  intro part later _
  cases part with
  | run content => rfl
  | plain c => rfl

theorem takes_part : Takes (orElse quoted plain) fun part => !part.isGap := by
  refine ⟨rfl, ?_⟩
  intro part later parted
  cases parted with
  | run inside _ =>
    rw [written_run, orElse, quoted_run inside]
    rfl
  | @plain c _ unopened _ =>
    have unquoted : quoted (c :: written later) = none := by
      by_cases quote : c = '"'
      · rw [quote]
        exact quoted_unclosed (unopened quote)
      · exact quoted_other quote
    rw [written_plain, orElse, unquoted, Option.none_or, plain_cons]
    by_cases ended : c ∈ separators <;> simp [Part.isGap, ended]

variable {rule : Rule} {accepted : Part → Bool} {front back : List Part}

theorem length_written_lt (back : List Part) (filled : front ≠ []) :
    (written back).length < (written (front ++ back)).length := by
  obtain ⟨part, rest, rfl⟩ := List.exists_cons_of_ne_nil filled
  have taken : 0 < part.text.length := List.length_pos_iff.mpr part.text_ne_nil
  simp only [written, List.flatMap_append, List.flatMap_cons, List.length_append]
  omega

theorem Takes.first {part : Part} (takes : Takes rule accepted) (parted : Parted (part :: back))
    (taken : accepted part = true) : rule (written (part :: back)) = some ⟨[], written back⟩ := by
  rw [takes.cons parted, if_pos taken]

theorem Takes.stop (takes : Takes rule accepted) (parted : Parted back)
    (stops : ∀ part ∈ back.head?, accepted part = false) : rule (written back) = none := by
  cases back with
  | nil => exact takes.nil
  | cons part later => simp [takes.cons parted, stops part rfl]

theorem Takes.many (takes : Takes rule accepted) (parted : Parted (front ++ back))
    (all : ∀ part ∈ front, accepted part = true)
    (stops : ∀ part ∈ back.head?, accepted part = false) :
    many rule (written (front ++ back)) = ⟨[], written back⟩ := by
  induction front with
  | nil => exact many_of_none (takes.stop parted stops)
  | cons part later ih =>
    obtain ⟨first, others⟩ := List.forall_mem_cons.mp all
    have shorter := length_written_lt (later ++ back) (List.cons_ne_nil part [])
    exact (many_of_skip (takes.first parted first) shorter).trans (ih parted.tail others)

theorem Takes.repeated1 (takes : Takes rule accepted) (parted : Parted (front ++ back))
    (filled : front ≠ []) (all : ∀ part ∈ front, accepted part = true)
    (stops : ∀ part ∈ back.head?, accepted part = false) :
    repeated1 rule (written (front ++ back)) = some ⟨[], written back⟩ := by
  cases front with
  | nil => exact absurd rfl filled
  | cons part later =>
    obtain ⟨first, others⟩ := List.forall_mem_cons.mp all
    rw [List.cons_append] at parted ⊢
    have rest : repeated rule (written (later ++ back)) = some ⟨[], written back⟩ :=
      congrArg some (takes.many parted.tail others stops)
    rw [Grammar.repeated1, andThen_of_some (takes.first parted first), rest]
    rfl

theorem token_written (parted : Parted (front ++ back)) (filled : front ≠ [])
    (inner : ∀ part ∈ front, ¬part.isGap = true)
    (stops : ∀ part ∈ back.head?, part.isGap = true) :
    token (written (front ++ back)) = some ⟨[written front], written back⟩ := by
  have taken := takes_part.repeated1 parted filled
    (fun part member => by simp [inner part member])
    (fun part member => by simp [stops part member])
  rw [token, capture, taken, written_append]
  simp

end Stretches

section Lines

variable {front back : List Part} {layout : Layout Part}

theorem head_token (filled : front ≠ []) (inner : ∀ part ∈ front, ¬part.isGap = true) :
    ∀ part ∈ (front ++ back).head?, part.isGap = false := by
  intro part first
  rw [List.head?_append_of_ne_nil _ filled] at first
  simpa using inner part (List.mem_of_mem_head? first)

theorem head_text (cut : layout.Cut (Part.isGap · = true))
    (between : layout.entries ≠ [] → layout.start ≠ []) :
    ∀ part ∈ layout.text.head?, part.isGap = true := by
  intro part first
  obtain ⟨start, entries⟩ := layout
  cases start with
  | nil =>
    cases entries with
    | nil => cases first
    | cons => exact absurd rfl (between (List.cons_ne_nil _ _))
  | cons a rest =>
    cases first
    exact cut.start _ List.mem_cons_self

theorem many_tokens (cut : layout.Cut (Part.isGap · = true)) (parted : Parted layout.text)
    (between : layout.entries ≠ [] → layout.start ≠ []) :
    ∃ left, Parted left ∧ (∀ part ∈ left, part.isGap = true) ∧
      many (andThen (repeated1 sep) token) (written layout.text) =
        ⟨layout.tokens.map written, written left⟩ := by
  induction cut with
  | @last start separators =>
    rw [Layout.text_last] at parted ⊢
    refine ⟨start, parted, separators, many_of_none ?_⟩
    cases start with
    | nil => rfl
    | cons part more =>
      rw [← List.append_nil (part :: more)] at parted ⊢
      rw [andThen_of_some (takes_sep.repeated1 parted (List.cons_ne_nil _ _) separators nofun)]
      rfl
  | @next start front gap later separators filled inner follows rest ih =>
    rw [Layout.text_next] at parted ⊢
    obtain ⟨left, again, gaps, found⟩ := ih parted.right.right follows
    have started := between (List.cons_ne_nil _ _)
    have before := takes_sep.repeated1 parted started separators (head_token filled inner)
    have here := token_written parted.right filled inner (head_text rest follows)
    have taken : andThen (repeated1 sep) token
        (written (start ++ (front ++ Layout.text ⟨gap, later⟩))) =
          some ⟨[written front], written (Layout.text ⟨gap, later⟩)⟩ := by
      rw [andThen_of_some before, here]
      rfl
    have shorter : (written (Layout.text ⟨gap, later⟩)).length <
        (written (start ++ (front ++ Layout.text ⟨gap, later⟩))).length :=
      Nat.lt_trans (length_written_lt _ filled) (length_written_lt _ started)
    refine ⟨left, again, gaps, ?_⟩
    rw [many_of_some taken shorter, found]
    rfl

theorem repeated_sep (parted : Parted front) (gaps : ∀ part ∈ front, part.isGap = true) :
    repeated sep (written front) = some ⟨[], []⟩ := by
  rw [← List.append_nil front] at parted ⊢
  exact congrArg some (takes_sep.many parted gaps nofun)

/-- The grammar matches a line as a whole, and finds its tokens. -/
theorem line_text (cut : layout.Cut (Part.isGap · = true)) (parted : Parted layout.text) :
    line (written layout.text) = some ⟨layout.tokens.map written, []⟩ := by
  cases cut with
  | @last start separators =>
    rw [Layout.text_last] at parted ⊢
    rw [line, andThen_of_some (repeated_sep parted separators)]
    have none_found : optional (andThen token (repeated (andThen (repeated1 sep) token))) [] =
        some ⟨[], []⟩ := rfl
    have final : repeated sep [] = some ⟨[], []⟩ := repeated_sep .nil nofun
    rw [andThen_of_some none_found, andThen_of_some final]
    rfl
  | @next start front gap later separators filled inner follows rest =>
    rw [Layout.text_next] at parted ⊢
    have before : repeated sep (written (start ++ (front ++ Layout.text ⟨gap, later⟩))) =
        some ⟨[], written (front ++ Layout.text ⟨gap, later⟩)⟩ :=
      congrArg some (takes_sep.many parted separators (head_token filled inner))
    have first := token_written parted.right filled inner (head_text rest follows)
    obtain ⟨left, again, gaps, others⟩ := many_tokens rest parted.right.right follows
    have found : optional (andThen token (repeated (andThen (repeated1 sep) token)))
        (written (front ++ Layout.text ⟨gap, later⟩)) =
          some ⟨written front :: (Layout.tokens ⟨gap, later⟩).map written, written left⟩ := by
      rw [optional, orElse, andThen_of_some first, repeated, others]
      rfl
    rw [line, andThen_of_some before, andThen_of_some found,
      andThen_of_some (repeated_sep again gaps)]
    simp [finish, Layout.tokens]

end Lines

end Grammar
end Script8255.Token
