import Script8255.Proofs.Template
import Script8255.Proofs.Token.Grammar

/-! The grammar of a text with placeholders. It matches every text, and what it finds there are the
segments of the text. -/

namespace Script8255.Template

open Token.Grammar

def placeholder : Rule := andThen (one (· == '$')) (capture (repeated1 (one Text.isWord)))

def other : Rule := andThen (except placeholder) any

def plain : Rule := capture (repeated1 other)

def tagged (kind : List Char → Segment) (rule : Rule) (text : List Char) :
    Option (List Segment × List Char) :=
  (rule text).map fun found => (found.tokens.map kind, found.rest)

/-- Plain text is tried only where no placeholder begins. -/
def part (text : List Char) : Option (List Segment × List Char) :=
  (tagged .placeholder placeholder text).or (tagged .text plain text)

def parts (text : List Char) : List Segment × List Char :=
  match part text with
  | none => ([], text)
  | some (found, rest) =>
    if rest.length < text.length then (found ++ (parts rest).1, (parts rest).2) else (found, rest)
termination_by text.length

def matched? (text : List Char) : Option (List Segment) :=
  if (parts text).2.isEmpty then some (parts text).1 else none

def read (text : List Char) : List Segment := (matched? text).getD [.text text]

section Rules

variable {text rest front : List Char} {later : List Segment}

theorem many_one (p : Char → Bool) (text : List Char) :
    many (one p) text = ⟨[], text.dropWhile p⟩ := by
  induction text with
  | nil => exact many_of_none rfl
  | cons c rest ih =>
    by_cases taken : p c = true
    · have step : one p (c :: rest) = some ⟨[], rest⟩ := if_pos taken
      rw [many_of_skip step (by simp), ih, List.dropWhile_cons_of_pos taken]
    · have step : one p (c :: rest) = none := if_neg taken
      rw [many_of_none step, List.dropWhile_cons_of_neg taken]

theorem capture_of_taken {rule : Rule} {tokens : List (List Char)} (whole : front ++ rest = text)
    (taken : rule text = some ⟨tokens, rest⟩) : capture rule text = some ⟨[front], rest⟩ := by
  unfold capture
  rw [taken, ← whole]
  simp

def starts (c : Char) (rest : List Char) : Bool := c == '$' && rest.head?.any Text.isWord

theorem placeholder_of_starts {c : Char} (here : starts c rest = true) :
    placeholder (c :: rest) =
      some ⟨[rest.takeWhile Text.isWord], rest.dropWhile Text.isWord⟩ := by
  obtain ⟨dollar, named⟩ := Bool.and_eq_true_iff.mp here
  have name : repeated1 (one Text.isWord) rest = some ⟨[], rest.dropWhile Text.isWord⟩ := by
    cases rest with
    | nil => cases named
    | cons d more =>
      have word : Text.isWord d = true := named
      have first : one Text.isWord (d :: more) = some ⟨[], more⟩ := if_pos word
      rw [repeated1, andThen_of_some first, repeated, many_one, List.dropWhile_cons_of_pos word]
      rfl
  have opened : one (· == '$') (c :: rest) = some ⟨[], rest⟩ := if_pos dollar
  have captured := capture_of_taken List.takeWhile_append_dropWhile name
  rw [placeholder, andThen_of_some opened, captured]
  rfl

theorem placeholder_of_not_starts {c : Char} (apart : ¬starts c rest = true) :
    placeholder (c :: rest) = none := by
  by_cases dollar : (c == '$') = true
  · have opened : one (· == '$') (c :: rest) = some ⟨[], rest⟩ := if_pos dollar
    have unnamed : one Text.isWord rest = none := by
      cases rest with
      | nil => rfl
      | cons d more =>
        have plain : ¬Text.isWord d = true := fun word =>
          apart (Bool.and_eq_true_iff.mpr ⟨dollar, word⟩)
        exact if_neg plain
    have nameless : capture (repeated1 (one Text.isWord)) rest = none := by
      rw [capture, repeated1, andThen_of_none unnamed]
      rfl
    rw [placeholder, andThen_of_some opened, nameless]
    rfl
  · exact andThen_of_none (if_neg dollar)

theorem other_of_starts {c : Char} (here : starts c rest = true) : other (c :: rest) = none := by
  refine andThen_of_none ?_
  rw [except, placeholder_of_starts here]
  rfl

theorem other_of_not_starts {c : Char} (apart : ¬starts c rest = true) :
    other (c :: rest) = some ⟨[], rest⟩ := by
  have skipped : except placeholder (c :: rest) = some ⟨[], c :: rest⟩ := by
    rw [except, placeholder_of_not_starts apart]
    rfl
  rw [other, andThen_of_some skipped]
  rfl

theorem other_of_apart (apart : ∀ front later, segments text = .text front :: later → False) :
    other text = none := by
  cases text with
  | nil => rfl
  | cons c rest =>
    by_cases here : starts c rest = true
    · exact other_of_starts here
    · obtain ⟨front, later, cut⟩ := segments_of_not_starts here
      exact absurd cut (apart (c :: front) later)

theorem many_other (cut : segments text = .text front :: later) :
    many other text = ⟨[], later.flatMap Segment.source⟩ := by
  induction text using segments.induct generalizing front with
  | case1 =>
    rw [segments] at cut
    cases cut
  | case2 c rest here ih =>
    rw [segments_of_starts here] at cut
    cases cut
  | case3 c rest apart front behind first ih =>
    rw [segments, if_neg apart, first] at cut
    cases cut
    rw [many_of_skip (other_of_not_starts apart) (by simp)]
    exact ih first
  | case4 c rest apart last ih =>
    rw [segments_apart apart last] at cut
    cases cut
    rw [many_of_skip (other_of_not_starts apart) (by simp), many_of_none (other_of_apart last),
      source_segments]

theorem plain_of_cut (cut : segments text = .text front :: later) :
    plain text = some ⟨[front], later.flatMap Segment.source⟩ := by
  have whole := source_segments text
  rw [cut] at whole
  suffices taken : repeated1 other text = some ⟨[], later.flatMap Segment.source⟩ from
    capture_of_taken whole taken
  cases text with
  | nil =>
    rw [segments] at cut
    cases cut
  | cons c rest =>
    have apart : ¬starts c rest = true := by
      intro here
      rw [segments_of_starts here] at cut
      cases cut
    have first := other_of_not_starts apart
    have all := many_other cut
    rw [many_of_skip first (by simp)] at all
    rw [repeated1, andThen_of_some first, repeated, all]
    rfl

theorem part_of_cut {segment : Segment} (cut : segments text = segment :: later) :
    part text = some ([segment], later.flatMap Segment.source) := by
  cases text with
  | nil =>
    rw [segments] at cut
    cases cut
  | cons c rest =>
    by_cases here : starts c rest = true
    · rw [segments_of_starts here] at cut
      cases cut
      rw [part, tagged, placeholder_of_starts here, source_segments]
      rfl
    · obtain ⟨front, behind, first⟩ := segments_of_not_starts here
      cases first.symm.trans cut
      rw [part, tagged, placeholder_of_not_starts here, tagged, plain_of_cut cut]
      rfl

/-- The grammar finds the segments one by one. -/
theorem parts_source {found : List Segment} (cut : segments text = found) :
    parts text = (found, []) := by
  induction found generalizing text with
  | nil =>
    have whole := source_segments text
    rw [cut] at whole
    cases whole
    rw [parts]
    rfl
  | cons segment later ih =>
    have whole := source_segments text
    rw [cut, List.flatMap_cons] at whole
    have shorter : (later.flatMap Segment.source).length < text.length := by
      rw [← whole, List.length_append]
      exact Nat.lt_add_of_pos_left (List.length_pos_iff.mpr (source_ne_nil cut))
    rw [parts, part_of_cut cut]
    dsimp only
    rw [if_pos shorter, ih (segments_tail cut)]
    rfl

theorem matched?_eq (text : List Char) : matched? text = some (segments text) := by
  unfold matched?
  rw [parts_source rfl]
  rfl

end Rules

end Script8255.Template
