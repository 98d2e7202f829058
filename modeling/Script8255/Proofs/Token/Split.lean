import Script8255.Proofs.Token.Grammar

/-! A line is split exactly at its unquoted separators. -/

namespace Script8255.Token

section Lines

variable {layout : Layout Part} {parts : List Part}

theorem ends_iff_isGap (part : Part) :
    ∀ c ∈ part.marked, ends c = true ↔ part.isGap = true := by
  intro c member
  obtain ⟨d, here, rfl⟩ := List.mem_map.mp member
  cases part with
  | run content => simp [ends, Part.isRun, Part.isGap]
  | plain e =>
    obtain rfl := List.mem_singleton.mp here
    simp [ends, Part.isRun, Part.isGap, isSeparator_iff]

theorem split_text (cut : layout.Cut (Part.isGap · = true)) (parted : Parted layout.text) :
    split (written layout.text) = layout.tokens.map written := by
  have marks := cut.flatMap Part.marked_ne_nil ends_iff_isGap
  have unmarked : List.map Prod.fst ∘ List.flatMap Part.marked = written := by
    funext token
    simp [written, Part.marked, List.map_flatMap, Function.comp_def]
  rw [split_eq_pieces, parted.quoting, ← Layout.text_flatMap, marks.pieces_text,
    Layout.tokens_flatMap, List.map_map, unmarked]

theorem covered_iff_quoted {k : Nat} {c : Char} (here : (written parts)[k]? = some c)
    (ended : c ∈ separators) :
    (parts.flatMap fun part => part.text.map fun _ => !part.isGap)[k]? = some true ↔
      (parts.flatMap Part.marked)[k]? = some (c, true) := by
  -- Character by character, with the stretch that each stands in.
  let rows := parts.flatMap fun part => part.text.map fun d => (d, part)
  have texts : written parts = rows.map Prod.fst := by
    simp [rows, written, List.map_flatMap, Function.comp_def]
  have covers : (parts.flatMap fun part => part.text.map fun _ => !part.isGap) =
      rows.map fun row => !row.2.isGap := by
    simp [rows, List.map_flatMap, Function.comp_def]
  have marks : parts.flatMap Part.marked = rows.map fun row => (row.1, row.2.isRun) := by
    simp only [rows, List.map_flatMap, List.map_map]
    rfl
  rw [texts, List.getElem?_map] at here
  obtain ⟨⟨d, part⟩, row, rfl⟩ := Option.map_eq_some_iff.mp here
  have member : (d, part) ∈ rows := List.mem_of_getElem? row
  obtain ⟨other, -, within⟩ := List.mem_flatMap.mp member
  obtain ⟨e, inside, same⟩ := List.mem_map.mp within
  cases same
  rw [covers, marks, List.getElem?_map, List.getElem?_map, row]
  cases part with
  | run content => simp [Part.isGap, Part.isRun]
  | plain f =>
    obtain rfl := List.mem_singleton.mp inside
    simpa [Part.isGap, Part.isRun] using ended

/-- A line is split exactly at its unquoted separators. The grammar matches it, and its tokens stand
between separators; a separator stands in one of them just where it is in a quoted run, and there is
one way to find the runs from left to right. -/
theorem tokens_split_at_unquoted_separators (line : String) :
    ∃ (parts : List Part) (layout : Layout Char),
      Grammar.line line.toList = some ⟨(tokenize line).map String.toList, []⟩ ∧
        (written parts = line.toList ∧ Parted parts ∧
          ∀ others, written others = line.toList → Parted others → others = parts) ∧
        layout.text = line.toList ∧ layout.tokens = (tokenize line).map String.toList ∧
        layout.Separated (· ∈ separators) ∧
        ∀ (k : Nat) (c : Char), line.toList[k]? = some c → c ∈ separators →
          (layout.covered[k]? = some true ↔ (parts.flatMap Part.marked)[k]? = some (c, true)) := by
  obtain ⟨parts, whole, parted⟩ := exists_parted line.toList
  have cut := Layout.cut_ofText Part.isGap parts
  have stretches := Layout.text_ofText Part.isGap parts
  have texts : ((Layout.ofText Part.isGap parts).flatMap Part.text).text = line.toList := by
    rw [Layout.text_flatMap, stretches, ← whole]
    rfl
  have tokens : (Layout.ofText Part.isGap parts).tokens.map written =
      (tokenize line).map String.toList := by
    have found := split_text cut (stretches.symm ▸ parted)
    rw [← found, stretches, whole]
    simp [tokenize, Function.comp_def]
  have ended : ∀ part : Part, part.isGap = true → ∀ c ∈ part.text, c ∈ separators := by
    intro part gap c member
    cases part with
    | run content => cases gap
    | plain d =>
      obtain rfl := List.mem_singleton.mp member
      simpa [Part.isGap] using gap
  refine ⟨parts, (Layout.ofText Part.isGap parts).flatMap Part.text, ?_, ⟨whole, parted, ?_⟩, texts,
    ?_, cut.separated.flatMap Part.text_ne_nil ended, ?_⟩
  · have matched := Grammar.line_text cut (stretches.symm ▸ parted)
    rwa [stretches, whole, tokens] at matched
  · intro others same again
    exact again.unique parted (same.trans whole.symm)
  · rw [← tokens]
    exact Layout.tokens_flatMap Part.text _
  · intro k c here separator
    rw [cut.covered_flatMap, stretches]
    exact covered_iff_quoted (whole.symm ▸ here) separator

example : tokenize "out a\"b c\"d \"e f" = ["out", "a\"b c\"d", "\"e", "f"] := by decide

end Lines

end Script8255.Token
