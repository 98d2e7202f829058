import Script8255.Text.Characters

/-! What is cut off the ends of a text, and texts with no white space at either end. -/

namespace Script8255.Text

theorem isBlank_of_isSeparator {c : Char} (separator : isSeparator c = true) :
    isBlank c = true := by
  simp only [isSeparator, Bool.or_eq_true] at separator
  rcases separator with space | control
  · simp [isBlank, space]
  · simp only [isBlank, control, Bool.true_or]

/-- A text that is not empty and off which nothing can be cut. -/
structure Trimmed (text : List Char) : Prop where
  first : ∃ c, text.head? = some c ∧ isBlank c = false
  last : ∃ c, text.getLast? = some c ∧ isBlank c = false

theorem head?_dropWhile_isBlank {text : List Char} (left : text.dropWhile isBlank ≠ []) :
    ∃ c, (text.dropWhile isBlank).head? = some c ∧ isBlank c = false := by
  refine ⟨_, List.head?_eq_some_head left, ?_⟩
  simpa using List.head_dropWhile_not isBlank left

theorem trimEnd_initial (text : List Char) : trimEnd text <+: text := by
  have suffix : text.reverse.dropWhile isBlank <:+ text.reverse := List.dropWhile_suffix _
  rw [← List.reverse_suffix]
  simpa [trimEnd] using suffix

theorem trim_sublist (text : List Char) : (trim text).Sublist text :=
  (trimEnd_initial (trimStart text)).sublist.trans (List.dropWhile_sublist isBlank)

theorem head?_trimEnd {text : List Char} (left : trimEnd text ≠ []) :
    (trimEnd text).head? = text.head? := by
  obtain ⟨cut, whole⟩ := trimEnd_initial text
  cases kept : trimEnd text with
  | nil => exact absurd kept left
  | cons c rest =>
    rw [kept] at whole
    simp [← whole]

theorem trimmed_trim {text : List Char} (left : trim text ≠ []) : Trimmed (trim text) := by
  have start : trimStart text ≠ [] := by
    intro empty
    apply left
    simp [trim, empty, trimEnd]
  constructor
  · have kept : (trim text).head? = (trimStart text).head? := head?_trimEnd left
    rw [kept]
    exact head?_dropWhile_isBlank start
  · have turned : (trimStart text).reverse.dropWhile isBlank ≠ [] := by
      simpa [trim, trimEnd] using left
    unfold trim trimEnd
    rw [List.getLast?_reverse]
    exact head?_dropWhile_isBlank turned

theorem dropWhile_isBlank_of_head {text : List Char} {c : Char} (first : text.head? = some c)
    (filled : isBlank c = false) : text.dropWhile isBlank = text := by
  cases text with
  | nil => cases first
  | cons d rest =>
    cases first
    simp [filled]

theorem Trimmed.trim_eq {text : List Char} (trimmed : Trimmed text) : trim text = text := by
  obtain ⟨c, first, filled⟩ := trimmed.first
  obtain ⟨d, last, full⟩ := trimmed.last
  have start : trimStart text = text := dropWhile_isBlank_of_head first filled
  have turned : text.reverse.head? = some d := by rw [List.head?_reverse, last]
  unfold trim trimEnd
  rw [start, dropWhile_isBlank_of_head turned full, List.reverse_reverse]

theorem Trimmed.ne_nil {text : List Char} (trimmed : Trimmed text) : text ≠ [] := by
  rintro rfl
  obtain ⟨c, impossible, -⟩ := trimmed.first
  cases impossible

theorem trimmed_of_no_blank {text : List Char} (filled : text ≠ [])
    (none : ∀ c ∈ text, isBlank c = false) : Trimmed text where
  first := ⟨_, List.head?_eq_some_head filled, none _ (List.head_mem filled)⟩
  last := ⟨_, List.getLast?_eq_some_getLast filled, none _ (List.getLast_mem filled)⟩

theorem exists_trim (text : List Char) :
    ∃ before after, text = before ++ trim text ++ after ∧
      (∀ c ∈ before, isBlank c = true) ∧ ∀ c ∈ after, isBlank c = true := by
  have start : text.takeWhile isBlank ++ trimStart text = text := List.takeWhile_append_dropWhile
  have finish : trim text ++ ((trimStart text).reverse.takeWhile isBlank).reverse =
      trimStart text := by
    unfold trim trimEnd
    rw [← List.reverse_append, List.takeWhile_append_dropWhile, List.reverse_reverse]
  refine ⟨text.takeWhile isBlank, ((trimStart text).reverse.takeWhile isBlank).reverse, ?_, ?_, ?_⟩
  · rw [List.append_assoc, finish, start]
  · exact fun c member => List.all_eq_true.mp List.all_takeWhile c member
  · intro c member
    exact List.all_eq_true.mp List.all_takeWhile c (List.mem_reverse.mp member)

theorem trim_padded {before text after : List Char} (trimmed : Trimmed text)
    (start : ∀ c ∈ before, isBlank c = true) (finish : ∀ c ∈ after, isBlank c = true) :
    trim (before ++ text ++ after) = text := by
  obtain ⟨c, first, filled⟩ := trimmed.first
  obtain ⟨d, last, full⟩ := trimmed.last
  have turned : text.reverse.head? = some d := by rw [List.head?_reverse, last]
  have cut : trimStart (before ++ (text ++ after)) = text ++ after := by
    have front : (text ++ after).head? = some c := by rw [List.head?_append, first, Option.some_or]
    unfold trimStart
    rw [List.dropWhile_append_of_pos start, dropWhile_isBlank_of_head front filled]
  have ends : ∀ c ∈ after.reverse, isBlank c = true := fun c member =>
    finish c (List.mem_reverse.mp member)
  unfold trim trimEnd
  rw [List.append_assoc, cut, List.reverse_append, List.dropWhile_append_of_pos ends,
    dropWhile_isBlank_of_head turned full, List.reverse_reverse]

theorem dropFinal_append (text : List Char) (c : Char) : dropFinal c (text ++ [c]) = text := by
  simp [dropFinal]

theorem dropFinal_of_other {text : List Char} {c : Char} (other : text.getLast? ≠ some c) :
    dropFinal c text = text := if_neg other

end Script8255.Text
