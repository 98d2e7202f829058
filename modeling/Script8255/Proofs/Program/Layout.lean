import Mathlib.Data.List.TakeWhile
import Script8255.Proofs.Program

/-! How the lines of a program may be laid out in a source text: white space around them, blank lines
between them and the kind of line ends do not matter. -/

namespace Script8255.Program

def IsGap (text : List Char) : Prop := ∀ c ∈ text, Text.isBlank c = true ∧ c ≠ '\n'

inductive Row : List String → List Char → Prop
  | blank {gap : List Char} (white : IsGap gap) : Row [] gap
  | filled {line : String} {before after : List Char} (shown : IsLine line)
      (start : IsGap before) (finish : IsGap after) :
      Row [line] (before ++ line.toList ++ after)

/-- The rows of a text show these lines, in order. Each row but the last has a line end. -/
inductive LaidOut : List String → List Char → Prop
  | last {lines : List String} {text : List Char} (row : Row lines text) : LaidOut lines text
  | next {lines later : List String} {text ending rest : List Char} (row : Row lines text)
      (ended : ending = ['\n'] ∨ ending = ['\r', '\n']) (below : LaidOut later rest) :
      LaidOut (lines ++ later) (text ++ ending ++ rest)

variable {lines : List String} {text : List Char}

def linesOf (text : List Char) : List (List Char) :=
  ((text.splitOn '\n').map Text.trim).filter fun line => !line.isEmpty

theorem linesOf_append (text rest : List Char) :
    linesOf (text ++ '\n' :: rest) = linesOf text ++ linesOf rest := by
  unfold linesOf
  simp only [List.splitOn_eq_splitOnP]
  rw [List.splitOnP_append_cons text rest (by simp), List.map_append, List.filter_append]

theorem linesOf_of_single (single : '\n' ∉ text) :
    linesOf text = if Text.trim text = [] then [] else [Text.trim text] := by
  have whole : text.splitOn '\n' = [text] := by
    rw [List.splitOn_eq_splitOnP]
    apply List.splitOnP_eq_singleton
    intro c member
    simpa using fun same : c = '\n' => single (same ▸ member)
  unfold linesOf
  rw [whole]
  by_cases blank : Text.trim text = [] <;> simp [blank]

theorem trim_of_gap (white : IsGap text) : Text.trim text = [] := by
  have start : Text.trimStart text = [] :=
    List.dropWhile_eq_nil_iff.mpr fun c member => (white c member).1
  unfold Text.trim
  rw [start]
  rfl

theorem Row.single (row : Row lines text) : '\n' ∉ text := by
  have outside {gap : List Char} (white : IsGap gap) : '\n' ∉ gap := fun member =>
    (white '\n' member).2 rfl
  cases row with
  | blank white => exact outside white
  | filled shown start finish =>
    simp [outside start, outside finish, shown.single]

theorem Row.linesOf_eq (row : Row lines text) : linesOf text = lines.map String.toList := by
  rw [linesOf_of_single row.single]
  cases row with
  | blank white =>
    rw [if_pos (trim_of_gap white)]
    rfl
  | @filled line before after shown start finish =>
    have cut : Text.trim (before ++ line.toList ++ after) = line.toList :=
      Text.trim_padded shown.trimmed (fun c member => (start c member).1)
        fun c member => (finish c member).1
    rw [cut, if_neg shown.trimmed.ne_nil]
    rfl

theorem Row.returned (row : Row lines text) : Row lines (text ++ ['\r']) := by
  have longer {gap : List Char} (white : IsGap gap) : IsGap (gap ++ ['\r']) := by
    intro c member
    rcases List.mem_append.mp member with inner | last
    · exact white c inner
    · rw [List.mem_singleton.mp last]
      decide
  cases row with
  | blank white => exact .blank (longer white)
  | filled shown start finish =>
    rw [List.append_assoc]
    exact .filled shown start (longer finish)

theorem LaidOut.linesOf_eq (laid : LaidOut lines text) :
    linesOf text = lines.map String.toList := by
  induction laid with
  | last row => exact row.linesOf_eq
  | @next lines later text ending rest row ended below ih =>
    rw [List.map_append, ← ih]
    rcases ended with rfl | rfl
    · rw [List.append_assoc, ← row.linesOf_eq]
      exact linesOf_append text rest
    · have split : text ++ ['\r', '\n'] ++ rest = text ++ ['\r'] ++ '\n' :: rest := by simp
      rw [split, linesOf_append, row.returned.linesOf_eq]

theorem exists_row (single : '\n' ∉ text) : ∃ lines, Row lines text := by
  obtain ⟨before, after, whole, start, finish⟩ := Text.exists_trim text
  have inner {gap : List Char} (part : gap ⊆ text) (white : ∀ c ∈ gap, Text.isBlank c = true) :
      IsGap gap := by
    intro c member
    refine ⟨white c member, ?_⟩
    rintro rfl
    exact single (part member)
  have front : before ⊆ text := by
    rw [whole]
    simp
  have back : after ⊆ text := by
    rw [whole]
    simp
  by_cases blank : Text.trim text = []
  · rw [blank, List.append_nil] at whole
    refine ⟨[], .blank (inner (List.Subset.refl text) ?_)⟩
    intro c member
    rw [whole] at member
    exact (List.mem_append.mp member).elim (start c) (finish c)
  · have shown : IsLine (String.ofList (Text.trim text)) := by
      constructor
      · rw [String.toList_ofList]
        exact Text.trimmed_trim blank
      · rw [String.toList_ofList]
        exact fun feed => single ((Text.trim_sublist text).subset feed)
    have row := Row.filled shown (inner front start) (inner back finish)
    rw [String.toList_ofList, ← whole] at row
    exact ⟨_, row⟩

theorem exists_laidOut (text : List Char) : ∃ lines, LaidOut lines text := by
  have rows (parts : List (List Char)) (single : ∀ part ∈ parts, '\n' ∉ part) :
      ∃ lines, LaidOut lines (['\n'].intercalate parts) := by
    induction parts with
    | nil => exact ⟨[], .last (.blank nofun)⟩
    | cons first others ih =>
      obtain ⟨lines, row⟩ := exists_row (single first List.mem_cons_self)
      obtain ⟨later, below⟩ := ih fun part member => single part (List.mem_cons_of_mem _ member)
      cases others with
      | nil =>
        rw [List.intercalate_singleton]
        exact ⟨lines, .last row⟩
      | cons second more =>
        rw [List.intercalate_cons_cons]
        exact ⟨_, .next row (Or.inl rfl) below⟩
  have single : ∀ part ∈ text.splitOn '\n', '\n' ∉ part := by
    intro part member feed
    rw [List.splitOn_eq_splitOnP] at member
    have cut := not_of_mem_splitOnP member '\n' feed
    simp at cut
  obtain ⟨lines, laid⟩ := rows _ single
  rw [List.intercalate_splitOn] at laid
  exact ⟨lines, laid⟩

theorem IsLine.tokens_ne_nil {line : String} (shown : IsLine line) : tokenize line ≠ [] := by
  intro empty
  have trimmed := shown.shown.trimmed
  rw [empty] at trimmed
  exact trimmed.ne_nil rfl

theorem LaidOut.isLine {line : String} (laid : LaidOut lines text) (member : line ∈ lines) :
    IsLine line := by
  have row_line {lines : List String} {text : List Char} (row : Row lines text)
      (member : line ∈ lines) : IsLine line := by
    cases row with
    | blank white => cases member
    | filled shown start finish =>
      rw [List.mem_singleton.mp member]
      exact shown
  induction laid with
  | last row => exact row_line row member
  | next row ended below ih => exact (List.mem_append.mp member).elim (row_line row) ih

/-- Every source text lays out some lines, and its program is the one of just these lines, with one
instruction for each, which has tokens. -/
theorem layout_does_not_matter (source : String) :
    (∃ lines, LaidOut lines source.toList) ∧
      ∀ lines, LaidOut lines source.toList →
        ofSource source = build lines ∧
          (ofSource source).instructions.size = lines.length ∧
          ∀ tokens ∈ (ofSource source).instructions, tokens ≠ [] := by
  refine ⟨exists_laidOut source.toList, ?_⟩
  intro lines laid
  have read : sourceLines source = lines := by
    change (linesOf source.toList).map String.ofList = lines
    rw [laid.linesOf_eq, List.map_map]
    simp [Function.comp_def]
  have same : ofSource source = build lines := by
    unfold ofSource
    rw [read]
  rw [same]
  refine ⟨rfl, by simp [build, ofInstructions], ?_⟩
  intro tokens member
  have listed : tokens ∈ lines.map tokenize := by
    simpa [build, ofInstructions] using member
  obtain ⟨line, present, rfl⟩ := List.mem_map.mp listed
  exact (laid.isLine present).tokens_ne_nil

end Script8255.Program
