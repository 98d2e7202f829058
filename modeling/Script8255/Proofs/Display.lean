import Script8255.Proofs.Binary64.Notation

/-! The text of a floating-point number tells which number it is, and that it is no integer. -/

namespace Script8255

open Binary64 Text

namespace Binary64

section Finite

variable {x y : Float} {negative : Bool} {mantissa : Nat} {exponent : Int}

/-- A decimal that is read as a number, and has the fewest digits of all that are. -/
structure IsShortest (decimal : Decimal) (mantissa : Nat) (exponent : Int) : Prop where
  reads : ReadsAs decimal.value mantissa exponent
  fewest : ∀ other : Decimal, ReadsAs other.value mantissa exponent →
    (Nat.toDigits 10 decimal.digits).length ≤ (Nat.toDigits 10 other.digits).length

theorem exists_shortest (proper : Proper mantissa exponent) :
    ∃ decimal n, IsShortest decimal mantissa exponent ∧
      Natural (scientific mantissa exponent).digits n ∧
      (scientific mantissa exponent).worth n = decimal.value := by
  rcases Nat.eq_zero_or_pos mantissa with rfl | positive
  · obtain rfl := proper.full (by decide)
    have zero : (⟨0, 0⟩ : Decimal).value = 0 := by rw [Decimal.value, Nat.cast_zero, zero_mul]
    refine ⟨⟨0, 0⟩, 0, ⟨zero ▸ readsAs_zero, fun other _ => Nat.length_toDigits_pos⟩,
      natural_toDigits 0, ?_⟩
    rw [zero, Scientific.worth, Nat.cast_zero, zero_mul]
  · obtain ⟨within, -⟩ := shortest_spec positive exponent
    have filled : 0 < (shortest mantissa exponent).digits := by
      rw [Nat.pos_iff_ne_zero]
      intro zero
      have some := within.pos positive
      rw [Decimal.value, zero, Nat.cast_zero, zero_mul] at some
      exact lt_irrefl _ some
    obtain ⟨n, natural, worth⟩ := Decimal.scientific_denotes filled
    rw [scientific, if_neg positive.ne']
    exact ⟨shortest mantissa exponent, n, ⟨(readsAs_iff_within proper positive).mpr within,
      fun other reads => shortest_fewest positive ((readsAs_iff_within proper positive).mp reads)⟩,
      natural, worth⟩

theorem display_of_finite (finite : number x = .finite negative mantissa exponent) :
    display x = signed negative (scientific mantissa exponent).display := by
  rw [display, finite]

theorem display_finite (finite : number x = .finite negative mantissa exponent) :
    ∃ decimal, IsShortest decimal mantissa exponent ∧
      Fixed (scientific mantissa exponent).positional decimal.value ∧
      Scaled (scientific mantissa exponent).exponential decimal.value ∧
      Written (display x) negative decimal.value ∧ ('.' ∈ display x ∨ 'e' ∈ display x) := by
  obtain ⟨decimal, n, shortest, natural, worth⟩ := exists_shortest (proper_of_number finite)
  have positional := Scientific.positional_denotes natural
  have exponential := Scientific.exponential_denotes natural
  obtain ⟨scaled, marked⟩ := Scientific.display_denotes natural
  rw [worth] at positional exponential scaled
  refine ⟨decimal, shortest, positional, exponential, ?_⟩
  rw [display_of_finite finite]
  cases negative with
  | false => exact ⟨.plain scaled, marked⟩
  | true => exact ⟨.minus scaled, marked.imp (List.mem_cons_of_mem _) (List.mem_cons_of_mem _)⟩

theorem eq_of_display {flipped : Bool} {other : Nat} {shift : Int}
    (left : number x = .finite negative mantissa exponent)
    (right : number y = .finite flipped other shift) (same : display x = display y) : x = y := by
  obtain ⟨decimal, shortest, -, -, written, -⟩ := display_finite left
  obtain ⟨again, also, -, -, rewritten, -⟩ := display_finite right
  rw [← same] at rewritten
  obtain ⟨rfl, equal⟩ := written.unique rewritten
  have reads := also.reads
  rw [← equal] at reads
  obtain ⟨rfl, rfl⟩ :=
    shortest.reads.unique (proper_of_number left) (proper_of_number right) reads
  exact eq_of_number left right

end Finite

section Marks

variable {x : Float}

theorem display_cases (x : Float) :
    (display x = "nan".toList ∨ display x = "inf".toList ∨ display x = "-inf".toList) ∨
      '.' ∈ display x ∨ 'e' ∈ display x := by
  cases shape : number x with
  | nan => exact Or.inl (Or.inl (by rw [display, shape]))
  | infinite negative =>
    rw [display, shape]
    cases negative with
    | false => exact Or.inl (Or.inr (Or.inl rfl))
    | true => exact Or.inl (Or.inr (Or.inr rfl))
  | finite negative mantissa exponent =>
    obtain ⟨decimal, -, -, -, -, marked⟩ := display_finite shape
    exact Or.inr marked

theorem display_unpadded (x : Float) (n : Int) : ¬Padded (display x) n := by
  intro padded
  have refused {c : Char} (member : c ∈ display x)
      (other : ¬(isBlank c = true ∨ c.isDigit = true ∨ c = '-' ∨ c = '+')) : False :=
    other (padded.mem member)
  rcases display_cases x with (nan | infinite | infinite) | point | power
  · exact refused (c := 'n') (by rw [nan]; decide) (by decide)
  · exact refused (c := 'n') (by rw [infinite]; decide) (by decide)
  · exact refused (c := 'n') (by rw [infinite]; decide) (by decide)
  · exact refused point (by decide)
  · exact refused power (by decide)

theorem finite_of_marked (marked : '.' ∈ display x ∨ 'e' ∈ display x) :
    ∃ negative mantissa exponent, number x = .finite negative mantissa exponent := by
  unfold display at marked
  split at marked
  · exact absurd marked (by decide)
  next negative _ => exact absurd marked (by cases negative <;> decide)
  next negative mantissa exponent finite => exact ⟨negative, mantissa, exponent, finite⟩

end Marks

end Binary64

/-- The text of a floating-point number is no integer's text, and a cast to an integer refuses it.
The text of a finite one denotes what its shortest decimal does, in either notation and with the
sign that zero has too, so that no other number has the same text. -/
theorem float_display_faithful (x : Float) :
    let text := (Value.float x).display
    (text = "nan" ∨ text = "inf" ∨ text = "-inf" ∨ '.' ∈ text.toList ∨ 'e' ∈ text.toList) ∧
      (∀ n : Int64, text ≠ (Value.int n).display) ∧
      (Value.str text).cast .integer = .error (.notInteger text) ∧
      match number x with
      | .nan => text = "nan"
      | .infinite negative => text = if negative then "-inf" else "inf"
      | .finite negative mantissa exponent =>
        (∃ decimal, IsShortest decimal mantissa exponent ∧
          Fixed (scientific mantissa exponent).positional decimal.value ∧
          Scaled (scientific mantissa exponent).exponential decimal.value ∧
          Written text.toList negative decimal.value) ∧
        ∀ y, (Value.float y).display = text → y = x := by
  have listed : (Value.float x).display.toList = display x := String.toList_ofList
  have unpadded (n : Int) : ¬Padded (Value.float x).display.toList n :=
    listed ▸ display_unpadded x n
  dsimp only
  refine ⟨?_, ?_, cast_text_of_unpadded unpadded, ?_⟩
  · rw [listed]
    rcases display_cases x with (nan | infinite | infinite) | marked
    · exact Or.inl (congrArg String.ofList nan)
    · exact Or.inr (Or.inl (congrArg String.ofList infinite))
    · exact Or.inr (Or.inr (Or.inl (congrArg String.ofList infinite)))
    · exact Or.inr (Or.inr (Or.inr marked))
  · intro n same
    have integer := display_integer n
    rw [← same] at integer
    exact unpadded n.toInt integer.padded
  · cases shape : number x with
    | nan => rw [Value.display, display, shape]; rfl
    | infinite negative =>
      rw [Value.display, display, shape]
      cases negative <;> rfl
    | finite negative mantissa exponent =>
      obtain ⟨decimal, shortest, positional, exponential, written, marked⟩ := display_finite shape
      refine ⟨⟨decimal, shortest, positional, exponential, listed ▸ written⟩, fun y same => ?_⟩
      have equal : display y = display x := String.ofList_inj.mp same
      obtain ⟨flipped, other, shift, finite⟩ := finite_of_marked (equal ▸ marked)
      exact eq_of_display finite shape equal

example : (Value.float (.ofBits 0x40590ccccccccccd)).display = "100.2" ∧
    (Value.float (.ofBits 0x4341c37937e08000)).display = "1e+16" ∧
    (Value.float (.ofBits 0x8000000000000000)).display = "-0.0" := by
  decide +kernel

end Script8255
