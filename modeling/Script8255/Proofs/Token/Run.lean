import Script8255.Proofs.Token

/-! The quoted runs of a line, from left to right: what the scan of a line marks. -/

namespace Script8255.Token

def separators : List Char := [' ', '\t', '\r', '\n', '\x0b', '\x0c']

theorem isSeparator_iff (c : Char) : Text.isSeparator c = true ↔ c ∈ separators := by
  have lower : '\t' ≤ c ↔ 9 ≤ c.toNat := Iff.rfl
  have upper : c ≤ '\r' ↔ c.toNat ≤ 13 := Iff.rfl
  simp only [Text.isSeparator, separators, List.mem_cons, List.not_mem_nil, or_false,
    ← Char.toNat_inj, Bool.or_eq_true, beq_iff_eq, Bool.and_eq_true, decide_eq_true_eq, lower,
    upper, Char.reduceToNat]
  omega

/-- What stands between the quotes of a run. A backslash takes the next character with it, and a
quote that none takes would end the run. -/
inductive Content : List Char → Prop where
  | nil : Content []
  | escaped {c : Char} {rest : List Char} : Content rest → Content ('\\' :: c :: rest)
  | plain {c : Char} {rest : List Char} :
    c ≠ '"' → c ≠ '\\' → Content rest → Content (c :: rest)

def Closable (text : List Char) : Prop :=
  ∃ content rest, Content content ∧ text = content ++ '"' :: rest

theorem closable_quote (rest : List Char) : Closable ('"' :: rest) :=
  ⟨[], rest, .nil, rfl⟩

theorem closable_escaped (c : Char) (rest : List Char) :
    Closable ('\\' :: c :: rest) ↔ Closable rest := by
  constructor
  · rintro ⟨content, left, inside, whole⟩
    cases inside with
    | nil => cases whole
    | escaped inside =>
      cases whole
      exact ⟨_, left, inside, rfl⟩
    | plain _ other =>
      obtain ⟨rfl, -⟩ := List.cons.inj whole
      exact absurd rfl other
  · rintro ⟨content, left, inside, rfl⟩
    exact ⟨_, left, .escaped inside, rfl⟩

theorem closable_plain {c : Char} {rest : List Char} (quote : c ≠ '"') (backslash : c ≠ '\\') :
    Closable (c :: rest) ↔ Closable rest := by
  constructor
  · rintro ⟨content, left, inside, whole⟩
    cases inside with
    | nil =>
      cases whole
      exact absurd rfl quote
    | escaped _ =>
      cases whole
      exact absurd rfl backslash
    | plain _ _ inside =>
      cases whole
      exact ⟨_, left, inside, rfl⟩
  · rintro ⟨content, left, inside, rfl⟩
    exact ⟨_, left, .plain quote backslash inside, rfl⟩

theorem not_closable_nil : ¬Closable [] := by
  rintro ⟨content, left, -, whole⟩
  simp at whole

theorem not_closable_backslash : ¬Closable ['\\'] := by
  rintro ⟨content, left, inside, whole⟩
  cases inside with
  | nil => cases whole
  | escaped _ => cases whole
  | plain _ other =>
    obtain ⟨rfl, -⟩ := List.cons.inj whole
    exact absurd rfl other

theorem escaped_of_not_closable {front rest : List Char}
    (unclosed : ¬Closable (front ++ '"' :: rest)) :
    ∃ content, Content content ∧ front = content ++ ['\\'] := by
  induction front using closes.induct with
  | case1 => exact absurd (closable_quote rest) unclosed
  | case2 later => exact absurd (closable_quote _) unclosed
  | case3 c later ih =>
    rw [List.cons_append, List.cons_append, closable_escaped] at unclosed
    obtain ⟨content, inside, rfl⟩ := ih unclosed
    exact ⟨'\\' :: c :: content, .escaped inside, rfl⟩
  | case4 c later quote escape ih =>
    by_cases backslash : c = '\\'
    · subst backslash
      cases later with
      | nil => exact ⟨[], .nil, rfl⟩
      | cons d more => exact absurd rfl (escape d more rfl)
    · rw [List.cons_append, closable_plain quote backslash] at unclosed
      obtain ⟨content, inside, rfl⟩ := ih unclosed
      exact ⟨c :: content, .plain quote backslash inside, rfl⟩

theorem closes_iff (text : List Char) : closes text = true ↔ Closable text := by
  induction text using closes.induct with
  | case1 => simp [closes, not_closable_nil]
  | case2 rest => simp [closes, closable_quote]
  | case3 c rest ih => rw [closable_escaped, ← ih, closes]
  | case4 c rest quote escape ih =>
    rw [closes_cons, if_neg quote]
    by_cases backslash : c = '\\'
    · cases rest with
      | nil =>
        subst backslash
        simp [closes, not_closable_backslash]
      | cons d more => exact absurd rfl (escape d more backslash)
    · rw [if_neg backslash, ih, closable_plain quote backslash]

theorem closes_eq_false_iff (text : List Char) : closes text = false ↔ ¬Closable text := by
  rw [← closes_iff, Bool.not_eq_true]

/-- One stretch of a line: a quoted run, of which this is what stands between its quotes, or one
character outside of any run. -/
inductive Part where
  | run (content : List Char)
  | plain (c : Char)

namespace Part

def text : Part → List Char
  | .run content => '"' :: content ++ ['"']
  | .plain c => [c]

def isRun : Part → Bool
  | .run _ => true
  | .plain _ => false

def isGap : Part → Bool
  | .run _ => false
  | .plain c => separators.contains c

def marked (part : Part) : List (Char × Bool) := part.text.map fun c => (c, part.isRun)

theorem text_ne_nil (part : Part) : part.text ≠ [] := by
  cases part <;> simp [text]

theorem marked_ne_nil (part : Part) : part.marked ≠ [] := by
  simp [marked, text_ne_nil]

end Part

def written (parts : List Part) : List Char := parts.flatMap Part.text

/-- The stretches are those that a line is read as: a quote opens a run exactly where the run can be
closed, and the first quote that can close it does. -/
inductive Parted : List Part → Prop where
  | nil : Parted []
  | run {content : List Char} {later : List Part} :
    Content content → Parted later → Parted (.run content :: later)
  | plain {c : Char} {later : List Part} :
    (c = '"' → ¬Closable (written later)) → Parted later → Parted (.plain c :: later)

theorem written_run (content : List Char) (later : List Part) :
    written (.run content :: later) = '"' :: (content ++ '"' :: written later) := by
  simp [written, Part.text]

theorem written_plain (c : Char) (later : List Part) :
    written (.plain c :: later) = c :: written later := rfl

theorem written_append (front back : List Part) :
    written (front ++ back) = written front ++ written back :=
  List.flatMap_append

theorem Parted.tail {part : Part} {later : List Part} (parted : Parted (part :: later)) :
    Parted later := by
  cases parted <;> assumption

theorem Parted.right {front back : List Part} (parted : Parted (front ++ back)) : Parted back := by
  induction front with
  | nil => exact parted
  | cons part later ih => exact ih parted.tail

theorem exists_parted (line : List Char) : ∃ parts, written parts = line ∧ Parted parts := by
  induction size : line.length using Nat.strongRecOn generalizing line with
  | _ n ih =>
    cases line with
    | nil => exact ⟨[], rfl, .nil⟩
    | cons c rest =>
      simp only [List.length_cons] at size
      by_cases opened : c = '"' ∧ Closable rest
      · obtain ⟨rfl, content, left, inside, rfl⟩ := opened
        simp only [List.length_append, List.length_cons] at size
        obtain ⟨parts, rfl, parted⟩ := ih left.length (by omega) left rfl
        exact ⟨_, written_run content parts, .run inside parted⟩
      · obtain ⟨parts, rfl, parted⟩ := ih rest.length (by omega) rest rfl
        have unopened : c = '"' → ¬Closable (written parts) := by
          intro quote closable
          exact opened ⟨quote, closable⟩
        exact ⟨_, written_plain c parts, .plain unopened parted⟩

theorem content_unique {content other rest left : List Char} (inside : Content content)
    (another : Content other) (same : content ++ '"' :: rest = other ++ '"' :: left) :
    content = other ∧ rest = left := by
  induction inside generalizing other with
  | nil =>
    cases another with
    | nil => simpa using same
    | escaped _ => cases same
    | plain quote =>
      cases same
      exact absurd rfl quote
  | escaped _ ih =>
    cases another with
    | nil => cases same
    | escaped another =>
      simp only [List.cons_append, List.cons.injEq, true_and] at same
      obtain ⟨rfl, later⟩ := same
      obtain ⟨rfl, rfl⟩ := ih another later
      exact ⟨rfl, rfl⟩
    | plain _ backslash =>
      obtain ⟨rfl, -⟩ := List.cons.inj same
      exact absurd rfl backslash
  | plain quote backslash _ ih =>
    cases another with
    | nil =>
      cases same
      exact absurd rfl quote
    | escaped _ =>
      obtain ⟨rfl, -⟩ := List.cons.inj same
      exact absurd rfl backslash
    | plain _ _ another =>
      simp only [List.cons_append, List.cons.injEq] at same
      obtain ⟨rfl, later⟩ := same
      obtain ⟨rfl, rfl⟩ := ih another later
      exact ⟨rfl, rfl⟩

theorem Parted.unique {parts others : List Part} (parted : Parted parts) (again : Parted others)
    (same : written parts = written others) : parts = others := by
  induction parted generalizing others with
  | nil =>
    cases again with
    | nil => rfl
    | run => simp [written, Part.text] at same
    | plain => simp [written, Part.text] at same
  | @run content later inside _ ih =>
    cases again with
    | nil => simp [written, Part.text] at same
    | run another again =>
      rw [written_run, written_run, List.cons.injEq] at same
      obtain ⟨rfl, left⟩ := content_unique inside another same.2
      rw [ih again left]
    | plain unopened _ =>
      rw [written_run, written_plain, List.cons.injEq] at same
      obtain ⟨rfl, left⟩ := same
      exact absurd ⟨content, _, inside, left.symm⟩ (unopened rfl)
  | @plain c later unopened _ ih =>
    cases again with
    | nil => simp [written, Part.text] at same
    | @run content others another _ =>
      rw [written_run, written_plain, List.cons.injEq] at same
      obtain ⟨rfl, left⟩ := same
      exact absurd ⟨content, _, another, left⟩ (unopened rfl)
    | plain _ again =>
      rw [written_plain, written_plain, List.cons.injEq] at same
      obtain ⟨rfl, left⟩ := same
      rw [ih again left]

theorem quoting_content {content : List Char} (inside : Content content) (rest : List Char) :
    quoting .inside (content ++ '"' :: rest) =
      content.map (·, true) ++ ('"', true) :: quoting .outside rest := by
  induction inside with
  | nil => simp [quoting]
  | escaped _ ih => simp [quoting, ih]
  | plain quote backslash _ ih => simp [quoting, quote, backslash, ih]

/-- The scan of a line marks its runs. -/
theorem Parted.quoting {parts : List Part} (parted : Parted parts) :
    quoting .outside (written parts) = parts.flatMap Part.marked := by
  induction parted with
  | nil => rfl
  | @run content later inside _ ih =>
    have closed : closes (content ++ '"' :: written later) = true :=
      (closes_iff _).mpr ⟨content, written later, inside, rfl⟩
    rw [written_run, Token.quoting]
    simp [closed, quoting_content inside, ih, Part.marked, Part.text, Part.isRun]
  | @plain c later unopened _ ih =>
    have kept : (c == '"' && closes (written later)) = false := by
      by_cases quote : c = '"'
      · have unclosed := (closes_eq_false_iff (written later)).mpr (unopened quote)
        simp [unclosed]
      · simp [quote]
    rw [written_plain, Token.quoting]
    simp [kept, ih, Part.marked, Part.text, Part.isRun]

end Script8255.Token
