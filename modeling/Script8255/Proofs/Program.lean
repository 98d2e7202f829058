import Script8255.Program
import Script8255.Proofs.Token

/-! Source texts as the lines of programs, and the text that a program is shown as. -/

namespace Script8255.Program

structure IsLine (line : String) : Prop where
  trimmed : Text.Trimmed line.toList
  single : '\n' ∉ line.toList

theorem isLine_of_mem_sourceLines {source line : String} (member : line ∈ sourceLines source) :
    IsLine line := by
  obtain ⟨text, kept, rfl⟩ := List.mem_map.mp member
  obtain ⟨cut, filled⟩ := List.mem_filter.mp kept
  obtain ⟨whole, part, rfl⟩ := List.mem_map.mp cut
  have left : Text.trim whole ≠ [] := by simpa using filled
  constructor
  · rw [String.toList_ofList]
    exact Text.trimmed_trim left
  · rw [String.toList_ofList]
    intro feed
    have inside := (Text.trim_sublist whole).subset feed
    rw [List.splitOn_eq_splitOnP] at part
    have cut := not_of_mem_splitOnP part '\n' inside
    simp at cut

theorem sourceLines_intercalate {lines : List String} (each : ∀ line ∈ lines, IsLine line) :
    sourceLines ("\n".intercalate lines) = lines := by
  by_cases filled : lines = []
  · subst filled
    rfl
  · have single : ∀ text ∈ lines.map String.toList, '\n' ∉ text := by
      intro text member
      obtain ⟨line, present, rfl⟩ := List.mem_map.mp member
      exact (each line present).single
    have parts : ("\n".intercalate lines).toList.splitOn '\n' = lines.map String.toList := by
      rw [String.toList_intercalate]
      exact List.splitOn_intercalate '\n' single (by simpa using filled)
    have trimmed : (lines.map String.toList).map Text.trim = lines.map String.toList := by
      rw [List.map_map]
      apply List.map_congr_left
      intro line member
      exact (each line member).trimmed.trim_eq
    have kept : ((lines.map String.toList).filter fun text => !text.isEmpty) =
        lines.map String.toList := by
      apply List.filter_eq_self.mpr
      intro text member
      obtain ⟨line, present, rfl⟩ := List.mem_map.mp member
      simpa using (each line present).trimmed.ne_nil
    unfold sourceLines
    rw [parts, trimmed, kept, List.map_map]
    simp [Function.comp_def]

theorem IsLine.shown {line : String} (is_line : IsLine line) :
    IsLine (showTokens (tokenize line)) := by
  constructor
  · rw [toList_showTokens_tokenize]
    exact Token.trimmed_shown is_line.trimmed
  · rw [toList_showTokens_tokenize]
    intro feed
    rcases Token.mem_shown feed with space | inside
    · cases space
    · exact is_line.single inside

def text (program : Program) : String :=
  "\n".intercalate (program.instructions.toList.map showTokens)

/-- Every instruction reads back from what it is shown as, and so does every program. -/
theorem shown_text_reads_back :
    (∀ line, tokenize (showTokens (tokenize line)) = tokenize line) ∧
      ∀ source, ofSource (ofSource source).text = ofSource source := by
  refine ⟨tokenize_showTokens, ?_⟩
  intro source
  have shown : (ofSource source).instructions.toList.map showTokens =
      (sourceLines source).map fun line => showTokens (tokenize line) := by
    simp [ofSource, build, ofInstructions]
  have lines : sourceLines (ofSource source).text =
      (sourceLines source).map fun line => showTokens (tokenize line) := by
    unfold text
    rw [shown]
    apply sourceLines_intercalate
    intro line member
    obtain ⟨original, present, rfl⟩ := List.mem_map.mp member
    exact (isLine_of_mem_sourceLines present).shown
  have tokens : (sourceLines (ofSource source).text).map tokenize =
      (sourceLines source).map tokenize := by
    rw [lines]
    simp [tokenize_showTokens]
  unfold ofSource build at tokens ⊢
  rw [tokens]

end Script8255.Program
