import Script8255.Instruction

/-! The tokens of each instruction. -/

namespace Script8255

namespace Instruction

variable {tokens : List String} {i : Instruction}

/-- Which tokens an instruction may stand for. An assignment comes last: it may look like any of the
other instructions of three tokens. -/
inductive Spelled : List String → Instruction → Prop
  | out (value : String) : Spelled ["out", value] (.out value)
  | label (name : String) : Spelled ["lbl", name] .label
  | exit (value : String) : Spelled ["ext", value] (.exit value)
  | clear : Spelled ["cls"] .clear
  | allocate (name size : String) : Spelled ["alc", name, size] (.allocate name size)
  | input (prompt name : String) : Spelled ["inp", prompt, ">", name] (.input prompt name)
  | arithmetic {opcode : String} {operation : Operation}
      (known : Operation.ofOpcode? opcode = some operation) (left right name : String) :
      Spelled [opcode, left, right, ">", name] (.arithmetic operation left right name)
  | cast {keyword : String} {target : CastTarget}
      (known : CastTarget.ofKeyword? keyword = some target) (name : String) :
      Spelled ["cst", name, keyword] (.cast name target)
  | compare (left right : String) : Spelled ["cmp", left, right] (.compare left right)
  | jump {opcode : String} {jump : Jump} (known : Jump.ofOpcode? opcode = some jump)
      (label : String) : Spelled [opcode, label] (.jump jump label)
  | drop (name : String) : Spelled ["drp", name] (.drop name)
  | assign (value name : String) : Spelled [value, ">", name] (.assign value name)

theorem spelled_of_ofTwo? {opcode operand : String} (shape : ofTwo? opcode operand = some i) :
    Spelled [opcode, operand] i := by
  unfold ofTwo? at shape
  split at shape
  · cases shape
    exact .out operand
  · cases shape
    exact .label operand
  · cases shape
    exact .exit operand
  · cases shape
    exact .drop operand
  · obtain ⟨jump, known, rfl⟩ := Option.map_eq_some_iff.mp shape
    exact .jump known operand

theorem spelled_of_assignment {first second third : String}
    (shape : (if second = ">" then some (assign first third) else none) = some i) :
    Spelled [first, second, third] i := by
  split at shape
  next arrow =>
    subst arrow
    cases shape
    exact .assign first third
  next => cases shape

theorem spelled_of_ofThree? {first second third : String}
    (shape : ofThree? first second third = some i) : Spelled [first, second, third] i := by
  unfold ofThree? at shape
  simp only at shape
  split at shape
  · cases shape
    exact .allocate second third
  · cases shape
    exact .compare second third
  · split at shape
    next target known =>
      cases shape
      exact .cast known second
    next => exact spelled_of_assignment shape
  · exact spelled_of_assignment shape

theorem spelled_of_ofTokens? (shape : ofTokens? tokens = some i) : Spelled tokens i := by
  unfold ofTokens? at shape
  split at shape
  · cases shape
    exact .clear
  · exact spelled_of_ofTwo? shape
  · exact spelled_of_ofThree? shape
  · cases shape
    exact .input _ _
  · obtain ⟨operation, known, rfl⟩ := Option.map_eq_some_iff.mp shape
    exact .arithmetic known _ _ _
  · cases shape

theorem ofTokens?_of_jump {opcode : String} {jump : Jump}
    (known : Jump.ofOpcode? opcode = some jump) (label : String) :
    ofTokens? [opcode, label] = some (.jump jump label) := by
  unfold Jump.ofOpcode? at known
  split at known <;> cases known <;> rfl

end Instruction

end Script8255
