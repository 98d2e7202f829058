import Script8255.Proofs.Literal
import Script8255.Proofs.Machine.Execution

/-! Any text can be written out by an instruction that has the text as a literal. -/

namespace Script8255.Machine

variable {m : Machine} {token text : String}

theorem execute_out_text (resolved : resolve m.store token = .ok (.str text))
    (room : m.output.HasRoom (text ++ "\n")) :
    m.execute ["out", token] =
      (.ok .next, { m with output := m.output.append (text ++ "\n").toUTF8 }) :=
  execute_of_effect rfl (.out resolved room)

/-- A line with `out` and a text spelled with codes has two tokens. With any variables it writes the
text and a line feed, and the literal names none of them. -/
theorem coded_text_written (text : String) (m : Machine)
    (room : m.output.HasRoom (text ++ "\n")) :
    let literal := Spelling.codes.literal text
    tokenize ("out " ++ literal) = ["out", literal] ∧
      (∀ name, .placeholder name ∉ segments (trimQuotes literal.toList)) ∧
      ∀ store : Store, ({ m with store }).execute (tokenize ("out " ++ literal)) =
        (.ok .next, { m with store, output := m.output.append (text ++ "\n").toUTF8 }) := by
  intro literal
  have word : ∀ c ∈ "out".toList, c ≠ '"' ∧ Text.isSeparator c = false := by
    simp [Text.isSeparator]
  have cut : tokenize ("out " ++ literal) = ["out", literal] :=
    Spelling.codes.tokenize_word_literal (by decide) word text
  refine ⟨cut, Spelling.codes.no_placeholder_literal text, ?_⟩
  intro store
  rw [cut]
  exact execute_out_text (Spelling.resolve_codes store text) room

theorem troublesome_text_written :
    let text := "\" $name\t\\n\n\\"
    let literal := Spelling.codes.literal text
    let m := start (Program.build []) ⟨false, false⟩ []
    m.output.HasRoom (text ++ "\n") ∧ literal = "\"\\x22 \\x24name\t\\x5cn\n\\x5c\"" ∧
      tokenize ("out " ++ literal) = ["out", literal] ∧
      (∀ name, .placeholder name ∉ segments (trimQuotes literal.toList)) ∧
      ∀ store : Store, ({ m with store }).execute (tokenize ("out " ++ literal)) =
        (.ok .next, { m with store, output := m.output.append (text ++ "\n").toUTF8 }) := by
  have spelled : Spelling.codes.literal "\" $name\t\\n\n\\" =
      "\"\\x22 \\x24name\t\\x5cn\n\\x5c\"" := rfl
  intro text literal m
  have room : m.output.HasRoom (text ++ "\n") := by
    intro limit limited
    cases limited
  exact ⟨room, spelled, coded_text_written text m room⟩

end Script8255.Machine
