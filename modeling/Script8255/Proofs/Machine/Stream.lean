import Script8255.Machine.Stream

/-! When an output takes a text, and how the lines of an input relate to the text it encodes. -/

namespace Script8255

namespace Output

def HasRoom (output : Output) (text : String) : Prop :=
  ∀ limit, output.limit = some limit → text.utf8ByteSize ≤ limit - output.written.size

variable {output next : Output} {text : String}

theorem write_eq_ok_iff :
    output.write text = (.ok (), next) ↔
      output.HasRoom text ∧ next = output.append text.toUTF8 := by
  unfold write HasRoom
  cases bounded : output.limit with
  | none => simp [eq_comm]
  | some limit =>
    by_cases room : text.utf8ByteSize ≤ limit - output.written.size
    · simp [room, eq_comm]
    · simp [room]

theorem write_eq_error {error : StreamError} (failed : output.write text = (.error error, next)) :
    ∃ bytes, next = output.append bytes := by
  unfold write at failed
  cases bounded : output.limit with
  | none => simp [bounded] at failed
  | some limit =>
    by_cases room : text.utf8ByteSize ≤ limit - output.written.size
    · simp [bounded, room] at failed
    · simp only [bounded] at failed
      rw [if_neg (show ¬ text.toUTF8.size ≤ _ from room)] at failed
      exact ⟨_, (Prod.mk.inj failed).2.symm⟩

theorem append_no_text (output : Output) : output.append "".toUTF8 = output := by
  have nothing : output.written ++ "".toUTF8 = output.written := ByteArray.append_empty
  unfold append
  rw [nothing]

theorem append_texts (output : Output) (first second : String) :
    (output.append first.toUTF8).append second.toUTF8 = output.append (first ++ second).toUTF8 := by
  unfold append
  simp only [String.toUTF8_eq_toByteArray, String.toByteArray_append, ByteArray.append_assoc]

theorem exists_longer (n : Nat) : ∃ text : String, n < text.utf8ByteSize := by
  induction n with
  | zero => exact ⟨"x", by decide⟩
  | succ n ih =>
    obtain ⟨text, longer⟩ := ih
    refine ⟨text ++ "x", ?_⟩
    have one : "x".utf8ByteSize = 1 := by decide
    rw [String.utf8ByteSize_append, one]
    omega

/-- An output on which no write and no flush fails. -/
structure Unfailing (output : Output) : Prop where
  writes : ∀ text, (output.write text).1 = .ok ()
  flushes : output.flush = .ok ()

namespace Unfailing

theorem write (takes : output.Unfailing) (text : String) :
    output.write text = (.ok (), output.append text.toUTF8) := by
  have written : output.write text = (.ok (), (output.write text).2) :=
    Prod.ext (takes.writes text) rfl
  rw [written, (write_eq_ok_iff.mp written).2]

theorem limit (takes : output.Unfailing) : output.limit = none := by
  cases bounded : output.limit with
  | none => rfl
  | some limit =>
    obtain ⟨text, longer⟩ := exists_longer limit
    have room := (write_eq_ok_iff.mp (takes.write text)).1 limit bounded
    omega

theorem append (takes : output.Unfailing) (bytes : ByteArray) :
    (output.append bytes).Unfailing := by
  refine ⟨?_, takes.flushes⟩
  intro text
  have unlimited : (output.append bytes).limit = none := takes.limit
  unfold Output.write
  rw [unlimited]

end Unfailing

end Output

def encode (text : List Char) : List UInt8 := text.flatMap String.utf8EncodeChar

theorem encode_eq_nil_iff {text : List Char} : encode text = [] ↔ text = [] := by
  cases text with
  | nil => simp [encode]
  | cons c text => simp [encode]

theorem encode_append (text rest : List Char) :
    encode (text ++ rest) = encode text ++ encode rest := List.flatMap_append

theorem fromUTF8?_eq_some_iff {bytes : ByteArray} {text : String} :
    String.fromUTF8? bytes = some text ↔ bytes = text.toUTF8 := by
  unfold String.fromUTF8?
  split
  next valid =>
    rw [Option.some.injEq, ← String.toByteArray_inj]
    rfl
  next invalid =>
    constructor
    · intro impossible
      cases impossible
    · intro same
      exact absurd (same ▸ text.isValidUTF8) invalid

theorem lineText_eq_ok_iff {line : List UInt8} {text : String} :
    lineText line = .ok text ↔ line = encode text.toList := by
  have spelled : (encode text.toList).toByteArray = text.toUTF8 := String.utf8Encode_toList
  rw [← List.toByteArray_inj, spelled, ← fromUTF8?_eq_some_iff]
  unfold lineText
  cases String.fromUTF8? line.toByteArray <;> simp

theorem takeLine_feed (input : List UInt8) : takeLine (10 :: input) = ([10], input) := by
  simp [takeLine]

theorem takeLine_of_not_mem {line : List UInt8} (plain : 10 ∉ line) (input : List UInt8) :
    takeLine (line ++ input) = (line ++ (takeLine input).1, (takeLine input).2) := by
  have passes : ∀ b ∈ line, decide (b ≠ 10) = true := by
    intro b member
    exact decide_eq_true fun feed => plain (feed ▸ member)
  unfold takeLine
  rw [List.dropWhile_append_of_pos passes, List.takeWhile_append_of_pos passes]
  cases input.dropWhile fun b => decide (b ≠ 10) <;> simp

theorem takeLine_fst_eq_nil_iff {input : List UInt8} : (takeLine input).1 = [] ↔ input = [] := by
  constructor
  · intro empty
    cases input with
    | nil => rfl
    | cons b rest =>
      by_cases feed : b = 10
      · subst feed
        rw [takeLine_feed] at empty
        cases empty
      · have plain : 10 ∉ [b] := by simpa [eq_comm] using feed
        have longer := takeLine_of_not_mem plain rest
        rw [List.singleton_append] at longer
        rw [longer] at empty
        cases empty
  · rintro rfl
    rfl

/-- A line has no line feed before its end, and lacks one there only when the input ends with it. -/
theorem takeLine_single (input : List UInt8) :
    10 ∉ (takeLine input).1.dropLast ∧ (10 ∈ (takeLine input).1 ∨ (takeLine input).2 = []) := by
  have plain : 10 ∉ input.takeWhile fun b => decide (b ≠ 10) := by
    intro member
    have other := List.all_eq_true.mp List.all_takeWhile 10 member
    simp at other
  unfold takeLine
  split
  next ended =>
    have whole := List.takeWhile_append_dropWhile (p := fun b => decide (b ≠ 10)) (l := input)
    rw [ended, List.append_nil] at whole
    rw [whole] at plain
    exact ⟨fun member => plain ((List.dropLast_sublist input).subset member), Or.inr rfl⟩
  next feed rest left =>
    have head := List.head?_dropWhile_not (fun b => decide (b ≠ 10)) input
    rw [left] at head
    obtain rfl : feed = 10 := by simpa using head
    refine ⟨?_, Or.inl (by simp)⟩
    rw [List.dropLast_concat]
    exact plain

theorem isEmpty_iff_of_read {input : List UInt8} {text : String}
    (read : lineText (takeLine input).1 = .ok text) : text.isEmpty = true ↔ input = [] := by
  rw [← takeLine_fst_eq_nil_iff, lineText_eq_ok_iff.mp read, encode_eq_nil_iff,
    String.toList_eq_nil_iff, String.isEmpty_iff]

theorem ofNat_eq_feed {n : Nat} (feed : 10 = UInt8.ofNat n) : n % 256 = 10 := by
  have codes := congrArg UInt8.toNat feed
  simpa using codes.symm

theorem feed_not_mem_encoding {c : Char} (other : c ≠ '\n') : 10 ∉ String.utf8EncodeChar c := by
  have code : c.val.toNat ≠ 10 := by
    intro same
    exact other (Char.ext (UInt32.toNat_inj.mp same))
  intro member
  unfold String.utf8EncodeChar at member
  simp only at member
  split at member
  · have low := ofNat_eq_feed (List.mem_singleton.mp member)
    omega
  · split at member
    · simp only [List.mem_cons, List.not_mem_nil, or_false] at member
      rcases member with byte | byte <;> have low := ofNat_eq_feed byte <;> omega
    · split at member
      · simp only [List.mem_cons, List.not_mem_nil, or_false] at member
        rcases member with byte | byte | byte <;> have low := ofNat_eq_feed byte <;> omega
      · simp only [List.mem_cons, List.not_mem_nil, or_false] at member
        rcases member with byte | byte | byte | byte <;> have low := ofNat_eq_feed byte <;> omega

theorem feed_not_mem_encode {text : List Char} (single : '\n' ∉ text) : 10 ∉ encode text := by
  intro member
  obtain ⟨c, present, byte⟩ := List.mem_flatMap.mp member
  exact feed_not_mem_encoding (fun feed => single (feed ▸ present)) byte

theorem takeLine_of_feed {text : List Char} (single : '\n' ∉ text) (rest : List UInt8) :
    takeLine (encode (text ++ ['\n']) ++ rest) = (encode (text ++ ['\n']), rest) := by
  have feed : encode ['\n'] = [10] := rfl
  rw [encode_append, feed, List.append_assoc, takeLine_of_not_mem (feed_not_mem_encode single),
    List.singleton_append, takeLine_feed]

theorem takeLine_encode (text : List Char) :
    ∃ first rest, takeLine (encode text) = (encode first, encode rest) := by
  induction text with
  | nil => exact ⟨[], [], rfl⟩
  | cons c text ih =>
    by_cases feed : c = '\n'
    · subst feed
      exact ⟨['\n'], text, takeLine_feed (encode text)⟩
    · obtain ⟨first, rest, taken⟩ := ih
      refine ⟨c :: first, rest, ?_⟩
      change takeLine (String.utf8EncodeChar c ++ encode text) = _
      rw [takeLine_of_not_mem (feed_not_mem_encoding feed), taken]
      rfl

theorem lineText_takeLine {input : List UInt8} {text : String} (valid : lineText input = .ok text) :
    (∃ first, lineText (takeLine input).1 = .ok first) ∧
      ∃ rest, lineText (takeLine input).2 = .ok rest := by
  obtain ⟨first, rest, taken⟩ := takeLine_encode text.toList
  rw [lineText_eq_ok_iff.mp valid, taken]
  refine ⟨⟨String.ofList first, ?_⟩, ⟨String.ofList rest, ?_⟩⟩
  · rw [lineText_eq_ok_iff, String.toList_ofList]
  · rw [lineText_eq_ok_iff, String.toList_ofList]

end Script8255
