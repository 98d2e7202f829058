import Script8255.Proofs.Escape
import Script8255.Template

/-! What a text says about the text in which its placeholders are replaced. -/

namespace Script8255

def Segment.source : Segment → List Char
  | text front => front
  | placeholder name => '$' :: name

section Segments

variable {text name : List Char}

theorem segments_apart {c : Char} {rest : List Char}
    (other : ¬(c == '$' && rest.head?.any Text.isWord) = true)
    (apart : ∀ front later, segments rest = .text front :: later → False) :
    segments (c :: rest) = .text [c] :: segments rest := by
  rw [segments, if_neg other]
  split
  next front later cut => exact (apart front later cut).elim
  next => rfl

theorem source_segments (text : List Char) : (segments text).flatMap Segment.source = text := by
  induction text using segments.induct with
  | case1 => rw [segments, List.flatMap_nil]
  | case2 c rest starts ih =>
    have dollar : c = '$' := by
      rw [Bool.and_eq_true, beq_iff_eq] at starts
      exact starts.1
    rw [segments, if_pos starts, List.flatMap_cons, ih, dollar, Segment.source, List.cons_append,
      List.takeWhile_append_dropWhile]
  | case3 c rest other front later cut ih =>
    rw [segments, if_neg other, cut]
    rw [cut] at ih
    exact congrArg (c :: ·) ih
  | case4 c rest other apart ih =>
    rw [segments_apart other apart]
    exact congrArg (c :: ·) ih

theorem words_of_placeholder (member : .placeholder name ∈ segments text) :
    ∀ c ∈ name, Text.isWord c = true := by
  induction text using segments.induct with
  | case1 =>
    rw [segments] at member
    cases member
  | case2 c rest starts ih =>
    rw [segments, if_pos starts, List.mem_cons] at member
    rcases member with same | later
    · obtain rfl := Segment.placeholder.inj same
      exact fun c here => List.all_eq_true.mp List.all_takeWhile c here
    · exact ih later
  | case3 c rest other front later cut ih =>
    rw [segments, if_neg other, cut] at member
    apply ih
    rw [cut]
    simpa using member
  | case4 c rest other apart ih =>
    rw [segments_apart other apart] at member
    apply ih
    simpa using member

theorem segments_of_starts {c : Char} {rest : List Char}
    (starts : (c == '$' && rest.head?.any Text.isWord) = true) :
    segments (c :: rest) =
      .placeholder (rest.takeWhile Text.isWord) :: segments (rest.dropWhile Text.isWord) := by
  rw [segments, if_pos starts]

theorem segments_of_not_starts {c : Char} {rest : List Char}
    (other : ¬(c == '$' && rest.head?.any Text.isWord) = true) :
    ∃ front later, segments (c :: rest) = .text (c :: front) :: later := by
  rw [segments, if_neg other]
  split
  next front later cut => exact ⟨front, later, rfl⟩
  next => exact ⟨[], segments rest, rfl⟩

theorem source_ne_nil {part : Segment} {later : List Segment}
    (cut : segments text = part :: later) : part.source ≠ [] := by
  cases text with
  | nil =>
    rw [segments] at cut
    cases cut
  | cons c rest =>
    by_cases starts : (c == '$' && rest.head?.any Text.isWord) = true
    · cases (segments_of_starts starts).symm.trans cut
      exact List.cons_ne_nil _ _
    · obtain ⟨front, behind, first⟩ := segments_of_not_starts starts
      cases first.symm.trans cut
      exact List.cons_ne_nil _ _

theorem segments_tail {part : Segment} {later : List Segment}
    (cut : segments text = part :: later) :
    segments (later.flatMap Segment.source) = later := by
  induction text using segments.induct generalizing part with
  | case1 =>
    rw [segments] at cut
    cases cut
  | case2 c rest starts ih =>
    rw [segments_of_starts starts] at cut
    cases cut
    rw [source_segments]
  | case3 c rest other front behind first ih =>
    rw [segments, if_neg other, first] at cut
    cases cut
    exact ih first
  | case4 c rest other apart ih =>
    rw [segments_apart other apart] at cut
    cases cut
    rw [source_segments]

theorem segments_suffix {front later : List Segment} (cut : segments text = front ++ later) :
    segments (later.flatMap Segment.source) = later := by
  induction front generalizing text with
  | nil =>
    rw [List.nil_append] at cut
    rw [← cut, source_segments]
  | cons part more ih => exact ih (segments_tail cut)

/-- A placeholder has a name, and takes all word characters that follow. -/
theorem placeholder_longest {later : List Segment}
    (cut : segments text = .placeholder name :: later) :
    name ≠ [] ∧ ∀ c ∈ (later.flatMap Segment.source).head?, Text.isWord c = false := by
  cases text with
  | nil =>
    rw [segments] at cut
    cases cut
  | cons c rest =>
    by_cases starts : (c == '$' && rest.head?.any Text.isWord) = true
    · rw [segments_of_starts starts] at cut
      cases cut
      rw [source_segments]
      constructor
      · cases rest with
        | nil => simp at starts
        | cons d more =>
          have word : Text.isWord d = true := (Bool.and_eq_true_iff.mp starts).2
          rw [List.takeWhile_cons_of_pos word]
          exact List.cons_ne_nil _ _
      · intro d first
        have left : rest.dropWhile Text.isWord ≠ [] :=
          List.ne_nil_of_mem (List.mem_of_mem_head? first)
        have stops := List.head_dropWhile_not Text.isWord left
        rw [List.head?_eq_some_head left] at first
        cases first
        simpa using stops
    · rw [segments, if_neg starts] at cut
      split at cut <;> cases cut

theorem head_of_not_starts {rest : List Char}
    (other : ¬('$' == '$' && rest.head?.any Text.isWord) = true) :
    ∀ c ∈ rest.head?, Text.isWord c = false := by
  intro c first
  rw [Option.mem_def] at first
  simpa [first] using other

theorem dollar_without_name {before after : List Char} {later : List Segment}
    (cut : segments text = .text (before ++ '$' :: after) :: later) :
    ∀ c ∈ (after ++ later.flatMap Segment.source).head?, Text.isWord c = false := by
  induction text using segments.induct generalizing before with
  | case1 =>
    rw [segments] at cut
    cases cut
  | case2 c rest starts ih =>
    rw [segments_of_starts starts] at cut
    cases cut
  | case3 c rest other front behind first ih =>
    rw [segments, if_neg other, first] at cut
    obtain ⟨same, rfl⟩ := List.cons.inj cut
    have whole := source_segments rest
    rw [first] at whole
    cases before with
    | nil =>
      cases same
      change after ++ behind.flatMap Segment.source = rest at whole
      rw [whole]
      exact head_of_not_starts other
    | cons d before =>
      cases same
      exact ih first
  | case4 c rest other apart ih =>
    rw [segments_apart other apart] at cut
    obtain ⟨same, rfl⟩ := List.cons.inj cut
    cases before with
    | nil =>
      cases same
      rw [source_segments]
      exact head_of_not_starts other
    | cons d before =>
      have short := congrArg List.length (Segment.text.inj same)
      simp at short

end Segments

section Backslashes

variable {store : Store} {text shown : List Char}

def Harmless (store : Store) (text : List Char) : Prop :=
  ∀ name value, .placeholder name ∈ segments text → store.read (String.ofList name) = .ok value →
    value.display ≠ "" ∧ '\\' ∉ value.display.toList

/-- A backslash takes what is displayed in place of a name just as it takes the dollar sign, so the
replacement changes nothing about the backslashes around it. -/
theorem waits_expand {parts : List Segment} {waiting : Bool}
    (words : ∀ name, .placeholder name ∈ parts → ∀ c ∈ name, Text.isWord c = true)
    (harmless : ∀ name value, .placeholder name ∈ parts →
      store.read (String.ofList name) = .ok value →
        value.display ≠ "" ∧ '\\' ∉ value.display.toList)
    (expanded : expand store parts = .ok shown) :
    Escape.waits waiting shown = Escape.waits waiting (parts.flatMap Segment.source) := by
  induction parts generalizing waiting shown with
  | nil =>
    cases expanded
    rfl
  | cons part later ih =>
    have rest := fun waiting shown => @ih shown waiting
      (fun name member => words name (List.mem_cons_of_mem part member))
      (fun name value member => harmless name value (List.mem_cons_of_mem part member))
    cases part with
    | text front =>
      obtain ⟨behind, done, rfl⟩ := Result.map_eq_ok.mp expanded
      rw [List.flatMap_cons, Escape.waits_append, Escape.waits_append, rest _ _ done]
      rfl
    | placeholder name =>
      have source : '\\' ∉ '$' :: name := by
        intro member
        have word := words name List.mem_cons_self '\\' (by simpa using member)
        cases word
      rw [expand] at expanded
      cases found : store.read (String.ofList name) with
      | error failure => simp [found] at expanded
      | ok value =>
        simp only [found] at expanded
        obtain ⟨behind, done, rfl⟩ := Result.map_eq_ok.mp expanded
        obtain ⟨filled, plain⟩ := harmless name value List.mem_cons_self found
        have display : value.display.toList ≠ [] := mt String.toList_eq_nil_iff.mp filled
        calc Escape.waits waiting (value.display.toList ++ behind)
            = Escape.waits false behind := by
              rw [Escape.waits_append, Escape.waits_of_filled waiting display plain]
          _ = Escape.waits false (later.flatMap Segment.source) := rest _ _ done
          _ = Escape.waits waiting (('$' :: name) ++ later.flatMap Segment.source) := by
              rw [Escape.waits_append,
                Escape.waits_of_filled waiting (List.cons_ne_nil '$' name) source]

theorem waits_interpolate (harmless : Harmless store text)
    (done : interpolate store text = .ok shown) (waiting : Bool) :
    Escape.waits waiting shown = Escape.waits waiting text :=
  calc Escape.waits waiting shown
      = Escape.waits waiting ((segments text).flatMap Segment.source) :=
        waits_expand (fun _ => words_of_placeholder) harmless done
    _ = Escape.waits waiting text := by rw [source_segments]

end Backslashes

end Script8255
