import Script8255.Proofs.Literal
import Script8255.Proofs.Template
import Script8255.Proofs.Token.Split

/-! Tokens with a quote that no other closes, and what becomes of them as operands. -/

namespace Script8255

namespace Token

theorem Layout.exists_around {α : Type} {layout : Layout α} {token : List α}
    (member : token ∈ layout.tokens) : ∃ before behind, layout.text = before ++ (token ++ behind) := by
  obtain ⟨entry, listed, rfl⟩ := List.mem_map.mp member
  obtain ⟨earlier, later, split⟩ := List.append_of_mem listed
  refine ⟨layout.start ++ earlier.flatMap fun entry => entry.1 ++ entry.2,
    entry.2 ++ later.flatMap fun entry => entry.1 ++ entry.2, ?_⟩
  simp [text, split]

/-- The stretches that a line is read as. Its runs are found from left to right, so there is one
reading of each line. -/
structure Reading (line : List Char) where
  parts : List Part
  whole : written parts = line
  parted : Parted parts

namespace Reading

variable {line : List Char}

def tokens (reading : Reading line) : List (List Part) :=
  (Layout.ofText Part.isGap reading.parts).tokens

theorem exists_reading (line : List Char) : Nonempty (Reading line) := by
  obtain ⟨parts, whole, parted⟩ := exists_parted line
  exact ⟨parts, whole, parted⟩

theorem unique (reading other : Reading line) : reading = other := by
  obtain ⟨parts, whole, parted⟩ := reading
  obtain ⟨others, again, separate⟩ := other
  obtain rfl := parted.unique separate (whole.trans again.symm)
  rfl

theorem split_eq (reading : Reading line) : split line = reading.tokens.map written := by
  have cut := Layout.cut_ofText Part.isGap reading.parts
  have stretches := Layout.text_ofText Part.isGap reading.parts
  have found := split_text cut (stretches.symm ▸ reading.parted)
  rwa [stretches, reading.whole] at found

theorem not_closable (reading : Reading line) {later : List Part}
    (member : .plain '"' :: later ∈ reading.tokens) :
    ∃ behind, ¬Closable (written later ++ behind) := by
  obtain ⟨before, behind, around⟩ := Layout.exists_around member
  rw [Layout.text_ofText] at around
  have whole : Parted (before ++ .plain '"' :: (later ++ behind)) := around ▸ reading.parted
  cases whole.right with
  | plain unclosed =>
    refine ⟨written behind, ?_⟩
    rw [← written_append]
    exact unclosed rfl

theorem ends_escaped (reading : Reading line) {later : List Part} {front : List Char}
    (member : .plain '"' :: later ∈ reading.tokens) (ends : written later = front ++ ['"']) :
    ∃ content, Content content ∧ front = content ++ ['\\'] := by
  obtain ⟨behind, unclosed⟩ := reading.not_closable member
  rw [ends, List.append_assoc] at unclosed
  exact escaped_of_not_closable unclosed

end Reading

theorem Content.waits {content : List Char} (inside : Content content) :
    Escape.waits false content = false := by
  induction inside with
  | nil => rfl
  | escaped _ ih => exact ih
  | plain _ backslash _ ih =>
    rw [Escape.waits_plain backslash]
    exact ih

theorem Content.no_opening {content : List Char} (inside : Content content) :
    (content ++ ['\\']).head? ≠ some '"' := by
  cases inside with
  | nil => simp
  | escaped => simp
  | plain quote => simpa using quote

end Token

section Operands

variable {text : List Char} {store : Store}

/-- Only the quotes at the ends are removed from a text that opens with a quote of its own and ends
with one that a backslash takes. -/
theorem trimQuotes_opened {content : List Char} (inside : Token.Content content) :
    trimQuotes ('"' :: (content ++ ['\\'] ++ ['"'])) = content ++ ['\\'] := by
  rw [trimQuotes_quoted, trimQuotes_of_head inside.no_opening, List.reverse_append,
    List.reverse_singleton, List.singleton_append, List.dropWhile_cons_of_neg (by decide),
    List.reverse_cons, List.reverse_reverse]

theorem resolve_opened {content : List Char} (inside : Token.Content content)
    (harmless : Harmless store (content ++ ['\\'])) :
    ∃ failure,
      resolve store (String.ofList ('"' :: (content ++ ['\\'] ++ ['"']))) = .error failure := by
  rw [resolve_quoted, resolveText, trimQuotes_opened inside]
  cases done : interpolate store (content ++ ['\\']) with
  | error failure => exact ⟨.store failure, rfl⟩
  | ok shown =>
    have left : Escape.waits false shown = true :=
      calc Escape.waits false shown
          = Escape.waits false (content ++ ['\\']) := waits_interpolate harmless done false
        _ = Escape.waits false ['\\'] := by rw [Escape.waits_append, inside.waits]
        _ = true := rfl
    obtain ⟨reason, unusable⟩ := Escape.decode_waits left
    exact ⟨.unusable reason, by simp only [unusable, Except.map]⟩

example : resolve ⟨100, [("x", ⟨some (.str "\\"), none, false⟩)]⟩ "\"$x\\\"" = .ok (.str "\\") := by
  cbv

theorem resolve_verbatim (store : Store) (quoted : isQuoted text = true) (plain : '\\' ∉ text)
    (literal : '$' ∉ text) :
    resolve store (String.ofList text) = .ok (.str (String.ofList (trimQuotes text))) := by
  have trimmed (c : Char) (member : c ∈ trimQuotes text) : c ∈ text := by
    have kept := (List.dropWhile_sublist _).mem (List.mem_reverse.mp member)
    exact (List.dropWhile_sublist _).mem (List.mem_reverse.mp kept)
  obtain ⟨body, rfl⟩ := isQuoted_iff.mp quoted
  rw [resolve_quoted, resolveText, interpolate_of_no_dollar store (mt (trimmed '$') literal)]
  dsimp only
  rw [Escape.decode_of_no_backslash (mt (trimmed '\\') plain)]
  rfl

/-- What becomes of a quote that stands outside of every run of its line, as nothing closes it. The
token that it is in is malformed, unless it begins and ends with a quote. If this first quote is
itself not closed, the last one is escaped. Its backslash is left over when the quotes are removed,
and it makes the text unusable, provided that no variable displays a backslash before it, or nothing
at all. Where a run has been closed before, the resolver does not see the quote: without escapes and
variables such a token is read as if there were nothing wrong. -/
theorem unclosed_quote_in_operand (line : String) :
    ∃ reading : Token.Reading line.toList,
      (∀ other : Token.Reading line.toList, other = reading) ∧
        tokenize line =
          reading.tokens.map (fun stretch => String.ofList (Token.written stretch)) ∧
        ∀ stretch ∈ reading.tokens, .plain '"' ∈ stretch →
          (Token.written stretch).head? ≠ some '&' → ∀ (store : Store) (token : String),
            token.toList = Token.written stretch →
              (isQuoted token.toList = false →
                  resolve store token = .error (.malformed (.value token))) ∧
                (stretch.head? = some (.plain '"') → Harmless store (trimQuotes token.toList) →
                  ∃ failure, resolve store token = .error failure) ∧
                (isQuoted token.toList = true → '\\' ∉ token.toList → '$' ∉ token.toList →
                  resolve store token = .ok (.str (String.ofList (trimQuotes token.toList)))) := by
  obtain ⟨reading⟩ := Token.Reading.exists_reading line.toList
  refine ⟨reading, fun other => other.unique reading, ?_, ?_⟩
  · rw [tokenize, reading.split_eq, List.map_map]
    rfl
  · intro stretch member unclosed operand store token spelled
    obtain rfl : token = String.ofList (Token.written stretch) := by
      rw [← spelled, String.ofList_toList]
    rw [String.toList_ofList]
    have quote : '"' ∈ Token.written stretch :=
      List.mem_flatMap.mpr ⟨.plain '"', unclosed, List.mem_singleton_self '"'⟩
    have resolved := resolve_of_quote store operand quote
    refine ⟨?_, ?_, resolve_verbatim store⟩
    · intro unquoted
      rw [resolved, if_neg (by simp [unquoted])]
    · intro opening harmless
      cases quoted : isQuoted (Token.written stretch) with
      | false => exact ⟨_, by rw [resolved, if_neg (by simp [quoted])]⟩
      | true =>
        obtain ⟨later, rfl⟩ := List.head?_eq_some_iff.mp opening
        obtain ⟨front, whole⟩ := isQuoted_iff.mp quoted
        rw [whole] at harmless ⊢
        rw [Token.written_plain, List.cons.injEq] at whole
        obtain ⟨content, inside, rfl⟩ := reading.ends_escaped member whole.2
        rw [trimQuotes_opened inside] at harmless
        exact resolve_opened inside harmless

/-- Behind a closed run the last quote of the token opens nothing, and yet the token is a text. -/
theorem quote_after_run_accepted :
    ∃ (reading : Token.Reading "out \"a\"b\"".toList) (stretch : List Token.Part),
      stretch ∈ reading.tokens ∧ Token.written stretch = "\"a\"b\"".toList ∧
        .plain '"' ∈ stretch ∧ "\"a\"b\"" ∈ tokenize "out \"a\"b\"" ∧
        ∀ store, resolve store "\"a\"b\"" = .ok (.str "a\"b") := by
  have unclosed : ¬Token.Closable [] := Token.not_closable_nil
  have parted : Token.Parted [.plain 'o', .plain 'u', .plain 't', .plain ' ', .run ['a'],
      .plain 'b', .plain '"'] :=
    .plain nofun (.plain nofun (.plain nofun (.plain nofun
      (.run (.plain (by decide) (by decide) .nil)
        (.plain nofun (.plain (fun _ => unclosed) .nil))))))
  refine ⟨⟨_, rfl, parted⟩, [.run ['a'], .plain 'b', .plain '"'], ?_, rfl, ?_, by decide, ?_⟩
  · exact List.mem_cons_of_mem _ List.mem_cons_self
  · exact List.mem_cons_of_mem _ (List.mem_cons_of_mem _ List.mem_cons_self)
  · intro store
    exact @resolve_verbatim "\"a\"b\"".toList store (by decide) (by decide) (by decide)

end Operands

end Script8255
